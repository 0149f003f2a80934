/-
What the klines files hold, after any sequence of calls.

# One file

A file is a stretch of the market: its rows are, in order, the candles
from some moment to another, each as it stood when it was fetched
(`Stretch`). A fetch from a file starts one step after its newest row, so
what it brings continues the stretch, and the merge has nothing to drop
and nothing to move: it appends (`readFile_file`). A fetch that fails, or
brings nothing, leaves the file.

# What follows

No holes, no duplicates, no row lost (`cache_no_holes`). The rest is what
an append-only file cannot do: a row fetched while its candle was open
stays as it was (`stored_final_iff`), and a file never grows backwards
(`covers_iff`).

# Histories

A history is a list of calls in the order of their clocks, with gaps of
any length between them and fetches that fail wherever they like. Calls
for different files do not meet: `Function.update` at one key leaves the
others. The induction appends a call (`after_concat`), and the moment up
to which a file is a stretch moves with the clock (`Stretch.later`).

# As they stood

A row is what the exchange said at the moment of its fetch, so the
invariant does not say that rows are final; it says of each that it was
told at some moment not after now. Everything about freshness is left to
`Final.lean`.
-/
import Proofstand.Data.Proofs.Exchange
import Proofstand.Lib.Timeline

namespace Proofstand

open Fallible Series Session

variable {K : Type}

/-- Every market the files may be of, each with its interval's step. -/
structure Exchange (K : Type) where
  market : String × String → Market K
  steps : ∀ key step, Cache.intervalMs.lookup key.2 = some step →
    (market key).step = step

namespace Cache

-- ============================================================ a stretch

/-- The rows are the candles of a stretch up to `t`, each as it stood when
it was fetched. -/
structure Stretch (m : Market K) (t : Int) (rows : List (KlineRow K)) :
    Prop where
  some_row : rows ≠ []
  span : ∃ a b, b ≤ t ∧ (rows.map fun r => r.openTimeMs) = m.candles a b
  fetched : ∀ r ∈ rows, ∃ n, r.openTimeMs ≤ n ∧ n ≤ t
    ∧ r = m.row n r.openTimeMs

/-- What was complete up to a moment is so later. -/
theorem Stretch.later {m : Market K} {t t' : Int}
    {rows : List (KlineRow K)} (h : Stretch m t rows) (ht : t ≤ t') :
    Stretch m t' rows := by
  obtain ⟨a, b, hb, hspan⟩ := h.span
  refine ⟨h.some_row, ⟨a, b, hb.trans ht, hspan⟩, ?_⟩
  intro r hr
  obtain ⟨n, hopen, hn, hrow⟩ := h.fetched r hr
  exact ⟨n, hopen, hn.trans ht, hrow⟩

/-- A file's rows, and where a fetch from them starts. -/
theorem Stretch.newest {m : Market K} {t : Int} {rows : List (KlineRow K)}
    (h : Stretch m t rows) (now days : Int) :
    ∃ a b last, b ≤ t ∧ (rows.map fun r => r.openTimeMs) = m.candles a b
      ∧ (m.candles a b).max? = some last
      ∧ startOf m.step now days (some rows) = last + m.step := by
  obtain ⟨a, b, hb, hspan⟩ := h.span
  have hne : m.candles a b ≠ [] := by
    rw [← hspan]
    simpa using h.some_row
  obtain ⟨last, hlast⟩ :=
    Option.isSome_iff_exists.1 (List.isSome_max?_of_ne_nil hne)
  refine ⟨a, b, last, hb, hspan, hlast, ?_⟩
  unfold startOf fetchPlan
  rw [Option.getD_some, hspan, hlast]

/-- A file is empty, or a stretch up to `t`. -/
def Sound (m : Market K) (t : Int) (file : File K) : Prop :=
  ∀ rows, file = some rows → Stretch m t rows

/-- Candles up to one of them and from a step after it are the candles. -/
theorem candles_append {m : Market K} {a b now last : Int} (hb : b ≤ now)
    (hlast : (m.candles a b).max? = some last) :
    m.candles a b ++ m.candles (last + m.step) now = m.candles a now := by
  obtain ⟨hmem, hmax⟩ := List.max?_eq_some_iff.1 hlast
  obtain ⟨⟨hgrid, -⟩, ha, -⟩ := Market.mem_candles_iff.1 hmem
  apply List.Pairwise.eq_of_mem_iff _ (m.candles_ascending a now)
  · intro x
    rw [List.mem_append, Market.mem_candles_iff, Market.mem_candles_iff,
      Market.mem_candles_iff]
    constructor
    · intro h
      rcases h with ⟨hx, hax, hxb⟩ | ⟨hx, hle, hxnow⟩
      · exact ⟨hx, hax, hxb.trans hb⟩
      · have hlt := (Market.lt_iff_step_le hgrid hx.1).2 hle
        exact ⟨hx, (ha.trans_lt hlt).le, hxnow⟩
    · intro h
      obtain ⟨hx, hax, hxnow⟩ := h
      by_cases hlt : last < x
      · exact Or.inr ⟨hx, (Market.lt_iff_step_le hgrid hx.1).1 hlt, hxnow⟩
      · have hlastb : last ≤ b := (Market.mem_candles_iff.1 hmem).2.2
        exact Or.inl ⟨hx, hax, (not_lt.1 hlt).trans hlastb⟩
  · rw [List.pairwise_append]
    refine ⟨m.candles_ascending a b, m.candles_ascending _ now, ?_⟩
    intro x hx y hy
    have hstep := m.step_pos
    have hxl : x ≤ last := hmax x hx
    have hly : last + m.step ≤ y := (Market.mem_candles_iff.1 hy).2.1
    omega

/-- Rows already in order are merged by appending. -/
theorem merge_eq_append {existing : File K} {fresh : List (KlineRow K)}
    (h : ((existing.getD [] ++ fresh).map fun r => r.openTimeMs).Pairwise
      (· < ·)) : merge existing fresh = existing.getD [] ++ fresh := by
  unfold merge pySortedBy
  rw [keepLast_eq_self (h.imp ne_of_lt)]
  apply List.Pairwise.insertionSort_eq
  rw [List.pairwise_map] at h
  exact h.imp fun hlt => hlt.le

/-- A fetch that brought rows continues the stretch of the file, from its
beginning (or the window's) to now. -/
theorem Sound.merge {m : Market K} {t now days : Int}
    {pair interval : String} {getJson : Binance.Endpoint K}
    {file : File K} {fresh : List (KlineRow K)} (h : Sound m t file)
    (ht : t ≤ now)
    (hserve : Serves m now (Binance.symbol pair) interval getJson)
    (hfetch : fetch getJson pair interval m.step now days file = .ok fresh)
    (hfresh : fresh ≠ []) :
    Cache.merge file fresh = file.getD [] ++ fresh
      ∧ startOf m.step now days file < now
      ∧ ∃ a, ((file.getD [] ++ fresh).map fun r => r.openTimeMs)
          = m.candles a now
        ∧ (file = none → a = now - days * 86400000) := by
  have hrows := fetch_eq_ok hserve hfetch
  have hlate : startOf m.step now days file < now := by
    by_contra hnot
    rw [if_neg hnot] at hrows
    exact hfresh hrows
  rw [if_pos hlate] at hrows
  have hspan : ∃ a, ((file.getD [] ++ fresh).map fun r => r.openTimeMs)
      = m.candles a now ∧ (file = none → a = now - days * 86400000) := by
    cases file with
    | none =>
        refine ⟨now - days * 86400000, ?_, fun _ => rfl⟩
        rw [hrows]
        exact m.map_row_openTimeMs now _
    | some rows =>
        obtain ⟨a, b, last, hb, hspan, hlast, hstart⟩ :=
          (h rows rfl).newest now days
        refine ⟨a, ?_, fun hnone => by cases hnone⟩
        rw [Option.getD_some, List.map_append, hrows, hspan, hstart,
          m.map_row_openTimeMs, candles_append (hb.trans ht) hlast]
  obtain ⟨a, hmap, hfrom⟩ := hspan
  refine ⟨merge_eq_append ?_, hlate, a, hmap, hfrom⟩
  rw [hmap]
  exact m.candles_ascending a now

-- ============================================================== one call

/-- What a call does to its file and returns: it only reads it; or its
fetch fails; or brings nothing; or brings rows that are merged in. -/
theorem readFile_cases (getJson : Binance.Endpoint K)
    (pair interval : String) (step now days : Int) (refresh : Bool)
    (file : File K) :
    (∃ rows, refresh = false ∧ file = some rows
        ∧ readFile getJson pair interval step now days refresh file
          = (window rows (now - days * 86400000), file))
      ∨ (refresh = true ∨ file = none) ∧
        ((∃ e, fetch getJson pair interval step now days file = .error e
            ∧ readFile getJson pair interval step now days refresh file
              = (.error e, file))
          ∨ (fetch getJson pair interval step now days file = .ok []
            ∧ readFile getJson pair interval step now days refresh file
              = (window (file.getD []) (now - days * 86400000), file))
          ∨ ∃ fresh, fresh ≠ []
            ∧ fetch getJson pair interval step now days file = .ok fresh
            ∧ readFile getJson pair interval step now days refresh file
              = (window (merge file fresh) (now - days * 86400000),
                  some (merge file fresh))) := by
  have hfetched : refresh = true ∨ file = none →
      ((∃ e, fetch getJson pair interval step now days file = .error e
            ∧ readFile getJson pair interval step now days refresh file
              = (.error e, file))
          ∨ (fetch getJson pair interval step now days file = .ok []
            ∧ readFile getJson pair interval step now days refresh file
              = (window (file.getD []) (now - days * 86400000), file))
          ∨ ∃ fresh, fresh ≠ []
            ∧ fetch getJson pair interval step now days file = .ok fresh
            ∧ readFile getJson pair interval step now days refresh file
              = (window (merge file fresh) (now - days * 86400000),
                  some (merge file fresh))) := by
    intro hnone
    have hread : readFile getJson pair interval step now days refresh file
        = readFile getJson pair interval step now days true file := by
      rcases hnone with rfl | rfl
      · rfl
      · cases refresh with
        | false => rfl
        | true => rfl
    rw [hread]
    cases hfetch : fetch getJson pair interval step now days file with
    | error e => exact Or.inl ⟨e, rfl, by simp [readFile, hfetch]⟩
    | ok fresh =>
        cases fresh with
        | nil => exact Or.inr (Or.inl ⟨rfl, by simp [readFile, hfetch]⟩)
        | cons r fresh =>
            exact Or.inr (Or.inr ⟨r :: fresh, List.cons_ne_nil _ _, rfl,
              by simp [readFile, hfetch]⟩)
  cases refresh with
  | true => exact Or.inr ⟨Or.inl rfl, hfetched (Or.inl rfl)⟩
  | false =>
      cases file with
      | none => exact Or.inr ⟨Or.inr rfl, hfetched (Or.inr rfl)⟩
      | some rows => exact Or.inl ⟨rows, rfl, rfl, rfl⟩

/-- What was in a file is at the beginning of another. -/
def Grows (file file' : File K) : Prop :=
  ∀ rows, file = some rows → ∃ more, file' = some (rows ++ more)

theorem Grows.refl (file : File K) : Grows file file :=
  fun rows h => ⟨[], by rw [List.append_nil]; exact h⟩

theorem Grows.trans {f g h : File K} (hfg : Grows f g) (hgh : Grows g h) :
    Grows f h := by
  intro rows hrows
  obtain ⟨more, hg⟩ := hfg rows hrows
  obtain ⟨rest, hh⟩ := hgh _ hg
  exact ⟨more ++ rest, by rw [hh, List.append_assoc]⟩

/-- The rows a fetch from this file brings, if it comes through. -/
def freshRows (m : Market K) (now days : Int) (file : File K) :
    List (KlineRow K) :=
  (m.candles (startOf m.step now days file) now).map (m.row now)

/-- The call fetches from this file, and the fetch comes through. -/
def FileFetches (m : Market K) (getJson : Binance.Endpoint K)
    (pair interval : String) (now days : Int) (refresh : Bool)
    (file : File K) : Prop :=
  (refresh = true ∨ file = none) ∧ startOf m.step now days file < now
    ∧ ∃ fresh, fetch getJson pair interval m.step now days file = .ok fresh

/-- A call keeps its file, having brought nothing, or adds to it the
candles from the fetch's start to now as they stand. -/
theorem readFile_file {m : Market K} {t now days : Int}
    {pair interval : String} {getJson : Binance.Endpoint K}
    {file : File K} (refresh : Bool) (h : Sound m t file) (ht : t ≤ now)
    (hserve : Serves m now (Binance.symbol pair) interval getJson) :
    ((readFile getJson pair interval m.step now days refresh file).2 = file
        ∧ (FileFetches m getJson pair interval now days refresh file →
          freshRows m now days file = []))
      ∨ FileFetches m getJson pair interval now days refresh file
        ∧ (readFile getJson pair interval m.step now days refresh file).2
          = some (file.getD [] ++ freshRows m now days file)
        ∧ Stretch m now (file.getD [] ++ freshRows m now days file) := by
  rcases readFile_cases getJson pair interval m.step now days refresh file
    with ⟨rows, hfalse, hsome, hread⟩ | ⟨hasked, ⟨e, herror, hread⟩
      | ⟨hnone, hread⟩ | ⟨fresh, hne, hfetch, hread⟩⟩
  · refine Or.inl ⟨by rw [hread], ?_⟩
    intro h
    rcases h with ⟨htrue | hnone, -⟩
    · rw [hfalse] at htrue
      cases htrue
    · rw [hsome] at hnone
      cases hnone
  · refine Or.inl ⟨by rw [hread], ?_⟩
    intro h
    obtain ⟨-, -, fresh, hfetch⟩ := h
    rw [herror] at hfetch
    cases hfetch
  · refine Or.inl ⟨by rw [hread], ?_⟩
    intro h
    obtain ⟨-, hlate, -⟩ := h
    have hfresh := fetch_eq_ok hserve hnone
    rw [if_pos hlate] at hfresh
    exact hfresh.symm
  · right
    obtain ⟨hmerge, hlate, a, hspan, -⟩ := h.merge ht hserve hfetch hne
    have hfresh := fetch_eq_ok hserve hfetch
    rw [if_pos hlate] at hfresh
    rw [show freshRows m now days file = fresh from hfresh.symm]
    refine ⟨⟨hasked, hlate, fresh, hfetch⟩, by rw [hread, hmerge], ?_⟩
    refine ⟨?_, ⟨a, now, le_refl now, hspan⟩, ?_⟩
    · intro hnil
      exact hne (List.append_eq_nil_iff.1 hnil).2
    · intro r hr
      rcases List.mem_append.1 hr with hr | hr
      · cases file with
        | none => cases hr
        | some rows => exact ((h rows rfl).later ht).fetched r hr
      · rw [hfresh] at hr
        obtain ⟨x, hx, rfl⟩ := List.mem_map.1 hr
        rw [Market.row_openTimeMs]
        exact ⟨now, (Market.mem_candles_iff.1 hx).2.2, le_refl now, rfl⟩

-- ========================================================= whole histories

/-- The endpoint serves the market the call is about. -/
def Served (ex : Exchange K) (c : Call K) : Prop :=
  Serves (ex.market c.key) c.nowMs c.key.1 c.interval c.getJson

/-- A sequence of calls, none before the one it follows, of pairs and
intervals the exchange serves. -/
structure History (ex : Exchange K) (calls : List (Call K)) : Prop where
  ordered : Timeline.Ordered (fun c => c.nowMs) calls
  served : ∀ c ∈ calls, Served ex c

/-- A history's parts are histories, the first before the second. -/
theorem History.append {ex : Exchange K} {p q : List (Call K)}
    (h : History ex (p ++ q)) :
    History ex p ∧ ∀ c ∈ p, ∀ d ∈ q, c.nowMs ≤ d.nowMs := by
  obtain ⟨hp, -, hcross⟩ := List.pairwise_append.1 h.ordered
  exact ⟨⟨hp, fun c hc => h.served c (List.mem_append_left q hc)⟩, hcross⟩

theorem after_concat (calls : List (Call K)) (c : Call K) :
    after (calls ++ [c]) = (readKlines c (after calls)).2 := by
  unfold after
  rw [List.foldl_append]
  rfl

/-- A call for an interval there is no file for raises and touches no file; -/
theorem readKlines_unsupported {c : Call K}
    (h : intervalMs.lookup c.interval = none) (store : Store K) :
    (∃ e, (readKlines c store).1 = .error e)
      ∧ (readKlines c store).2 = store := by
  unfold readKlines
  rw [h]
  exact ⟨⟨_, rfl⟩, rfl⟩

/-- any other works on its own file alone. -/
theorem readKlines_supported {c : Call K} {step : Int}
    (h : intervalMs.lookup c.interval = some step) (store : Store K) :
    (readKlines c store).1
        = (readFile c.getJson c.pair c.interval step c.nowMs c.days c.refresh
            (store c.key)).1
      ∧ (readKlines c store).2
        = Function.update store c.key
            (readFile c.getJson c.pair c.interval step c.nowMs c.days
              c.refresh (store c.key)).2 := by
  unfold readKlines
  rw [h]
  exact ⟨rfl, rfl⟩

/-- The call fetches, and the fetch comes through. -/
def Fetches (ex : Exchange K) (c : Call K) (store : Store K) : Prop :=
  (∃ step, intervalMs.lookup c.interval = some step)
    ∧ FileFetches (ex.market c.key) c.getJson c.pair c.interval c.nowMs
      c.days c.refresh (store c.key)

/-- What a call adds to a file: nothing, or, to the file of its own pair
and interval, the candles from its fetch's start to now as they stand. -/
theorem readKlines_file {ex : Exchange K} {c : Call K} {store : Store K}
    {t : Int} (hserve : Served ex c) (ht : t ≤ c.nowMs)
    (key : String × String) (h : Sound (ex.market key) t (store key)) :
    ((readKlines c store).2 key = store key
        ∧ (key = c.key → Fetches ex c store →
          freshRows (ex.market key) c.nowMs c.days (store key) = []))
      ∨ key = c.key ∧ Fetches ex c store
        ∧ (readKlines c store).2 key = some ((store key).getD [] ++
            freshRows (ex.market key) c.nowMs c.days (store key))
        ∧ Stretch (ex.market key) c.nowMs ((store key).getD [] ++
            freshRows (ex.market key) c.nowMs c.days (store key)) := by
  cases hstep : intervalMs.lookup c.interval with
  | none =>
      refine Or.inl ⟨by rw [(readKlines_unsupported hstep store).2], ?_⟩
      intro _ h
      obtain ⟨⟨step, hsome⟩, -⟩ := h
      rw [hstep] at hsome
      cases hsome
  | some step =>
      rw [(readKlines_supported hstep store).2]
      by_cases hkey : key = c.key
      · subst hkey
        rw [Function.update_self]
        obtain rfl := ex.steps c.key step hstep
        rcases readFile_file c.refresh h ht hserve with
          ⟨hsame, hnone⟩ | ⟨hfetches, hfile, hstretch⟩
        · exact Or.inl ⟨hsame, fun _ hfetches => hnone hfetches.2⟩
        · exact Or.inr ⟨rfl, ⟨⟨_, hstep⟩, hfetches⟩, hfile, hstretch⟩
      · exact Or.inl ⟨Function.update_of_ne hkey _ _,
          fun hsame => absurd hsame hkey⟩

/-- After a history each file is a stretch of its market. -/
theorem sound_after {ex : Exchange K} {calls : List (Call K)}
    (h : History ex calls) {t : Int} (ht : ∀ c ∈ calls, c.nowMs ≤ t)
    (key : String × String) : Sound (ex.market key) t (after calls key) := by
  induction calls using List.reverseRecOn generalizing t with
  | nil =>
      intro rows hrows
      cases hrows
  | append_singleton calls c ih =>
      obtain ⟨hinit, hcross⟩ := h.append
      have hbefore := ih hinit fun d hd => hcross d hd c List.mem_cons_self
      have hserve := h.served c
        (List.mem_append_right calls List.mem_cons_self)
      have hct : c.nowMs ≤ t :=
        ht c (List.mem_append_right calls List.mem_cons_self)
      rw [after_concat]
      rcases readKlines_file hserve (le_refl c.nowMs) key hbefore
        with ⟨hsame, -⟩ | ⟨-, -, hfile, hstretch⟩
      · rw [hsame]
        exact fun rows hrows => (hbefore rows hrows).later hct
      · rw [hfile]
        intro rows hrows
        rw [← Option.some.inj hrows]
        exact hstretch.later hct

/-- No call takes anything out of a file. -/
theorem grows_after {ex : Exchange K} {p q : List (Call K)}
    (h : History ex (p ++ q)) (key : String × String) :
    Grows (after p key) (after (p ++ q) key) := by
  induction q using List.reverseRecOn with
  | nil =>
      rw [List.append_nil]
      exact Grows.refl _
  | append_singleton q c ih =>
      rw [← List.append_assoc] at h ⊢
      obtain ⟨hinit, hcross⟩ := h.append
      apply (ih hinit).trans
      have hsound : Sound (ex.market key) c.nowMs (after (p ++ q) key) :=
        sound_after hinit (fun d hd => hcross d hd c List.mem_cons_self) key
      have hserve := h.served c
        (List.mem_append_right _ List.mem_cons_self)
      rw [after_concat]
      rcases readKlines_file hserve (le_refl c.nowMs) key hsound
        with ⟨hsame, -⟩ | ⟨-, -, hfile, -⟩
      · rw [hsame]
        exact Grows.refl _
      · intro rows hrows
        rw [hfile, hrows, Option.getD_some]
        exact ⟨_, rfl⟩

/-- After any history a file's rows are strictly in order of open time, no
row once stored is lost, and no exchange candle between two of them is
missing. -/
theorem cache_no_holes {ex : Exchange K} {calls : List (Call K)}
    (h : History ex calls) (key : String × String)
    {rows : List (KlineRow K)} (hrows : after calls key = some rows) :
    (rows.map fun r => r.openTimeMs).Pairwise (· < ·)
      ∧ (∀ p q, calls = p ++ q → ∀ old, after p key = some old →
          old <+: rows)
      ∧ ∀ first ∈ rows, ∀ last ∈ rows, ∀ t, (ex.market key).step ∣ t →
          (ex.market key).listed t = true → first.openTimeMs ≤ t →
          t ≤ last.openTimeMs → ∃ r ∈ rows, r.openTimeMs = t := by
  -- some moment that no call is after
  obtain ⟨t, ht⟩ : ∃ t, ∀ c ∈ calls, c.nowMs ≤ t := by
    obtain ⟨t, ht⟩ := (calls.map fun c => c.nowMs).toFinset.exists_le
    exact ⟨t, fun c hc => ht _ (by simpa using ⟨c, hc, rfl⟩)⟩
  obtain ⟨-, ⟨a, b, -, hspan⟩, -⟩ := sound_after h ht key rows hrows
  refine ⟨?_, ?_, ?_⟩
  · rw [hspan]
    exact (ex.market key).candles_ascending a b
  · intro p q heq
    subst heq
    intro old hold
    obtain ⟨more, hmore⟩ := grows_after h key old hold
    rw [hrows] at hmore
    exact ⟨more, (Option.some.inj hmore).symm⟩
  · intro first hfirst last hlast x hgrid hlisted hle hge
    have hin : ∀ r ∈ rows, a ≤ r.openTimeMs ∧ r.openTimeMs ≤ b := by
      intro r hr
      have hmem : r.openTimeMs ∈ rows.map fun r => r.openTimeMs :=
        List.mem_map_of_mem hr
      rw [hspan] at hmem
      exact (Market.mem_candles_iff.1 hmem).2
    have hmem : x ∈ rows.map fun r => r.openTimeMs := by
      rw [hspan]
      exact Market.mem_candles_iff.2 ⟨⟨hgrid, hlisted⟩,
        (hin first hfirst).1.trans hle, hge.trans (hin last hlast).2⟩
    exact List.mem_map.1 hmem

-- ============================================================ an exchange

theorem intervalMs_pos {interval : String} {step : Int}
    (h : intervalMs.lookup interval = some step) : 0 < step := by
  have hall : ∀ p ∈ intervalMs, 0 < p.2 := by decide
  obtain ⟨l, r, hsplit, -⟩ := List.lookup_eq_some_iff.1 h
  apply hall (interval, step)
  rw [hsplit]
  exact List.mem_append_right l List.mem_cons_self

/-- Candles for ten days from moment 0, each at 1 while it is open and
closed at 2. -/
def risingMarket (step : Int) (hstep : 0 < step) : Market ℚ where
  step := step
  step_pos := hstep
  listed t := 0 ≤ t ∧ t ≤ 864000000
  quote t now := ⟨⟨t, 1, 2, 1, if now < t + step then 1 else 2⟩, 0⟩
  opens _ _ := rfl
  settled t now h := by
    rw [if_neg (not_lt.2 h), if_neg (lt_irrefl _)]

def risingExchange : Exchange ℚ where
  market key :=
    match h : intervalMs.lookup key.2 with
    | some step => risingMarket step (intervalMs_pos h)
    | none => risingMarket 1 Int.one_pos
  steps key step h := by
    split
    · rename_i step' h'
      rw [h] at h'
      exact (Option.some.inj h').symm
    · rename_i h'
      rw [h] at h'
      cases h'

/-- The endpoint of an exchange at a moment. -/
def endpoint (ex : Exchange ℚ) (now : Int) : Binance.Endpoint ℚ := fun req =>
  match req.startTime, req.endTime with
  | some a, some b =>
      .ok ((ex.market (req.symbol, req.interval)).page now a b req.limit)
  | _, _ => .ok []

theorem endpoint_answers (ex : Exchange ℚ) (now : Int)
    (sym interval : String) :
    Answers (ex.market (sym, interval)) now sym interval
      (endpoint ex now) := by
  intro req
  obtain ⟨sym', interval', limit, start, stop⟩ := req
  intro a b hsym hinterval hstart hend
  subst hsym hinterval hstart hend
  rfl

/-- A refreshing call for daily candles. -/
def daily (now days : Int) : Call ℚ where
  pair := "BNB-USDT"
  interval := "1d"
  days := days
  refresh := true
  nowMs := now
  getJson := endpoint risingExchange now

/-- Calls in the order of their clocks are a history. -/
theorem daily_history (calls : List (Int × Int))
    (h : calls.Pairwise fun c d => c.1 ≤ d.1) :
    History risingExchange (calls.map fun c => daily c.1 c.2) := by
  constructor
  · unfold Timeline.Ordered
    rw [List.pairwise_map]
    exact h
  · intro c hc
    obtain ⟨p, -, rfl⟩ := List.mem_map.1 hc
    exact (endpoint_answers risingExchange p.1 _ _).serves

/-- Two days after ten of trading, then a year later: the file holds its
three last candles, in order. -/
theorem cache_no_holes_daily : ∃ rows,
    after [daily 1036800000 4, daily 32572800000 1]
        (daily 0 0).key = some rows
      ∧ (rows.map fun r => r.openTimeMs).Pairwise (· < ·) := by
  have hhistory : History risingExchange
      [daily 1036800000 4, daily 32572800000 1] :=
    daily_history [(1036800000, 4), (32572800000, 1)] (by decide)
  obtain ⟨rows, hrows⟩ := Option.isSome_iff_exists.1
    (show (after [daily 1036800000 4, daily 32572800000 1]
      (daily 0 0).key).isSome = true by decide +kernel)
  exact ⟨rows, hrows, (cache_no_holes hhistory _ hrows).1⟩

end Cache

end Proofstand
