/-
The stress path is the worst decline of the window.

`argminFrom_spec` is the inner search: an entry of the window and none
below it. The outer loop keeps `Worst`: the drawdown so far is the ratio
of two closes in order, and no start candle already passed has a lower
one after it. At the end every pair is covered, so no decline that starts
anywhere in the window goes below the returned path's own minimum, and an
account it would liquidate is liquidated on that path.

# Two nested searches

The source looks for the lowest close after each start candle and keeps
the best ratio so far. The inner search is specified by a prefix whose
least entry it has (`argminFrom_spec`), so its induction can go along the
list. The outer invariant `Worst` says both that the ratio is attained by
two closes in order and that none of the starts already passed does
better. The last close is a start for nothing, and is covered by itself
(`Worst.all_le`).

The returned path is a stretch of closes over its first. Its minimum is the
worst ratio (`Worst.min_window`), and the unguarded replay is liquidated
exactly where some ratio takes the account under 1, so the path decides
for every decline in the window.
-/
import Proofstand.Agents.VenusGuard.Agent
import Proofstand.Agents.Proofs.Guarded

namespace Proofstand

namespace VenusGuard

open Fallible

variable {K : Type} [Field K] [LinearOrder K]

-- ======================================================= the inner search

omit [Field K] in
/-- Past a prefix whose least entry is at `best`, the search ends at an
entry of the whole list and none is below it. -/
theorem argminFrom_spec {l pre rest : List K} {best : Nat} {bestVal : K}
    (hl : l = pre ++ rest) (hbest : l[best]? = some bestVal)
    (hpre : ∀ x ∈ pre, bestVal ≤ x) :
    l[(argminFrom best bestVal pre.length rest).1]?
        = some (argminFrom best bestVal pre.length rest).2
      ∧ ∀ x ∈ l, (argminFrom best bestVal pre.length rest).2 ≤ x := by
  induction rest generalizing pre best bestVal with
  | nil =>
      rw [List.append_nil] at hl
      rw [hl] at hbest ⊢
      exact ⟨hbest, hpre⟩
  | cons x xs ih =>
      have hl' : l = (pre ++ [x]) ++ xs := by
        rw [hl, List.append_assoc, List.singleton_append]
      have hlen : (pre ++ [x]).length = pre.length + 1 := by
        rw [List.length_append, List.length_singleton]
      rw [argminFrom, ← hlen]
      by_cases hx : x < bestVal
      · rw [if_pos hx]
        apply ih hl'
        · rw [hl, List.getElem?_append_right (le_refl _), Nat.sub_self]
          rfl
        · intro y hy
          rcases List.mem_append.1 hy with hy | hy
          · exact hx.le.trans (hpre y hy)
          · exact (List.mem_singleton.1 hy).ge
      · rw [if_neg hx]
        apply ih hl' hbest
        intro y hy
        rcases List.mem_append.1 hy with hy | hy
        · exact hpre y hy
        · rw [List.mem_singleton.1 hy]
          exact not_lt.1 hx

-- ======================================================== the outer loop

/-- The drawdown so far is a ratio of two closes in order, at most 1, and
no start candle before `i` has a lower one. -/
structure Worst (closes : List K) (i : Nat) (best : Drawdown K) : Prop where
  attained : ∃ peak low, closes[best.start]? = some peak
    ∧ closes[best.trough]? = some low ∧ best.drawdown = low / peak
  order : best.start ≤ best.trough
  start : best.start = 0 ∨ best.start < i
  le_one : best.drawdown ≤ 1
  lowest : ∀ a b ca cb, a < i → a ≤ b → closes[a]? = some ca →
    closes[b]? = some cb → best.drawdown ≤ cb / ca

theorem Worst.init {closes : List K} {c : K} (hc : closes[0]? = some c)
    (hpos : c ≠ 0) : Worst closes 0 ⟨0, 1, 0⟩ where
  attained := ⟨c, c, hc, hc, (div_self hpos).symm⟩
  order := le_refl 0
  start := Or.inl rfl
  le_one := le_refl 1
  lowest := fun a _ _ _ ha => absurd ha (Nat.not_lt_zero a)

theorem getElem?_of_drop_eq {α : Type} {l m : List α} {i : Nat}
    (h : l.drop i = m) (j : Nat) : l[i + j]? = m[j]? := by
  rw [← h, List.getElem?_drop]

section Order

variable [IsStrictOrderedRing K]

/-- The step at candle `i`: the search's ratio, if it is lower. -/
theorem Worst.step {closes : List K} {i j : Nat} {best : Drawdown K}
    {c low : K} {cs : List K} (h : Worst closes i best)
    (hdrop : closes.drop i = c :: cs) (hpos : ∀ x ∈ closes, 0 < x)
    (hlow : (c :: cs)[j]? = some low) (hmin : ∀ x ∈ c :: cs, low ≤ x) :
    Worst closes (i + 1)
      (if low / c < best.drawdown then ⟨i, low / c, i + j⟩ else best) := by
  have hc : closes[i]? = some c := getElem?_of_drop_eq hdrop 0
  have hcpos : 0 < c := hpos c (List.mem_of_getElem? hc)
  -- every ratio from candle `i` on is at least the search's
  have hhere : ∀ b ca cb, i ≤ b → closes[i]? = some ca →
      closes[b]? = some cb → low / c ≤ cb / ca := by
    intro b ca cb hb hca hcb
    obtain rfl : c = ca := Option.some.inj (hc.symm.trans hca)
    obtain ⟨d, rfl⟩ := Nat.exists_eq_add_of_le hb
    rw [getElem?_of_drop_eq hdrop] at hcb
    exact (div_le_div_iff_of_pos_right hcpos).2
      (hmin cb (List.mem_of_getElem? hcb))
  by_cases hlt : low / c < best.drawdown
  · rw [if_pos hlt]
    refine ⟨⟨c, low, hc, ?_, rfl⟩, Nat.le_add_right i j,
      Or.inr (Nat.lt_succ_self i), hlt.le.trans h.le_one, ?_⟩
    · rw [← hlow]
      exact getElem?_of_drop_eq hdrop j
    · intro a b ca cb ha hab hca hcb
      rcases Nat.lt_succ_iff_lt_or_eq.1 ha with ha | rfl
      · exact hlt.le.trans (h.lowest a b ca cb ha hab hca hcb)
      · exact hhere b ca cb hab hca hcb
  · rw [if_neg hlt]
    refine ⟨h.attained, h.order, by have := h.start; omega, h.le_one, ?_⟩
    intro a b ca cb ha hab hca hcb
    rcases Nat.lt_succ_iff_lt_or_eq.1 ha with ha | rfl
    · exact h.lowest a b ca cb ha hab hca hcb
    · exact (not_lt.1 hlt).trans (hhere b ca cb hab hca hcb)

/-- The loop from candle `i` returns, and ends with every start candle but
the last one passed. -/
theorem worstFrom_spec {closes rest : List K} {i : Nat} {best : Drawdown K}
    (hdrop : closes.drop i = rest) (hpos : ∀ x ∈ closes, 0 < x)
    (h : Worst closes i best) :
    ∃ worst, worstFrom best i rest = .ok worst
      ∧ Worst closes (max i (closes.length - 1)) worst := by
  have hlen : closes.length - i = rest.length := by
    rw [← hdrop, List.length_drop]
  induction rest generalizing i best with
  | nil =>
      rw [List.length_nil] at hlen
      rw [max_eq_left (by omega)]
      exact ⟨best, rfl, h⟩
  | cons c cs ih =>
      cases cs with
      | nil =>
          rw [List.length_singleton] at hlen
          rw [max_eq_left (by omega)]
          exact ⟨best, rfl, h⟩
      | cons c' cs =>
          have hc : 0 < c := by
            apply hpos
            exact List.mem_of_getElem? (getElem?_of_drop_eq hdrop 0)
          have hsplit : c :: c' :: cs = [c] ++ c' :: cs := rfl
          have hfirst : (c :: c' :: cs)[0]? = some c := rfl
          obtain ⟨hlow, hmin⟩ := argminFrom_spec hsplit hfirst
            (fun x hx => (List.mem_singleton.1 hx).ge)
          have hstep := h.step hdrop hpos hlow hmin
          have hdrop' : closes.drop (i + 1) = c' :: cs := by
            rw [← List.drop_drop, hdrop]
            rfl
          rw [List.length_cons] at hlen
          obtain ⟨worst, hworst, hspec⟩ :=
            ih hdrop' hstep (by omega)
          refine ⟨worst, ?_, ?_⟩
          · rw [← hworst]
            simp only [worstFrom, pyDiv, if_neg hc.ne', ok_bind,
              List.length_singleton]
            split
            · rfl
            · rfl
          · rw [List.length_cons] at hlen
            rw [max_eq_right (by omega)] at hspec ⊢
            exact hspec

end Order

-- ======================================================== what it is for

/-- The unguarded account is liquidated where some ratio takes it under
1. -/
theorem noActionFrom_liquidated_iff {pos : Position K} {path : List K}
    (step : Nat) (m : WithTop K) :
    (noActionFrom pos step m path).liquidated = true
      ↔ ∃ k ∈ path, pos.hfAt k pos.borrowUsd < 1 := by
  induction path generalizing step m with
  | nil => simp [noActionFrom]
  | cons k ks ih =>
      rw [noActionFrom, List.exists_mem_cons_iff]
      by_cases hk : pos.hfAt k pos.borrowUsd < 1
      · rw [if_pos hk]
        simp [hk]
      · rw [if_neg hk, ih]
        simp [hk]

theorem mapM_pyDiv {peak : K} (hpeak : peak ≠ 0) (l : List K) :
    l.mapM (fun c => pyDiv c peak) = .ok (l.map fun c => c / peak) := by
  induction l with
  | nil => rfl
  | cons c l ih =>
      apply mapM_cons_eq_ok.2
      refine ⟨c / peak, l.map fun c => c / peak, ?_, ih, rfl⟩
      rw [pyDiv, if_neg hpeak]

variable [IsStrictOrderedRing K]

omit [IsStrictOrderedRing K] in
/-- Every pair of candles in order has at least the ratio the whole loop
ends with, the last start candle included. -/
theorem Worst.all_le {closes : List K} {worst : Drawdown K}
    (h : Worst closes (closes.length - 1) worst)
    (hpos : ∀ c ∈ closes, 0 < c) {a b : Nat} {ca cb : K} (hab : a ≤ b)
    (hca : closes[a]? = some ca) (hcb : closes[b]? = some cb) :
    worst.drawdown ≤ cb / ca := by
  have hb : b < closes.length := (List.getElem?_eq_some_iff.1 hcb).1
  by_cases ha : a < closes.length - 1
  · exact h.lowest a b ca cb ha hab hca hcb
  · obtain rfl : a = b := by omega
    obtain rfl : ca = cb := Option.some.inj (hca.symm.trans hcb)
    rw [div_self (hpos ca (List.mem_of_getElem? hca)).ne']
    exact h.le_one

omit [IsStrictOrderedRing K] in
/-- At the end it is the least quotient of a later close by an earlier one,
or 1. -/
theorem Worst.isLeast {closes : List K} {worst : Drawdown K}
    (h : Worst closes (closes.length - 1) worst)
    (hpos : ∀ c ∈ closes, 0 < c) :
    IsLeast {r | r = 1 ∨ ∃ (i j : Nat) (ci cj : K), i < j
      ∧ closes[i]? = some ci ∧ closes[j]? = some cj ∧ r = cj / ci}
      worst.drawdown := by
  obtain ⟨peak, low, hpeak, hlow, hdd⟩ := h.attained
  have horder := h.order
  constructor
  · by_cases hstart : worst.start = worst.trough
    · rw [← hstart, hpeak] at hlow
      obtain rfl : peak = low := Option.some.inj hlow
      have hpeak0 := hpos peak (List.mem_of_getElem? hpeak)
      exact Or.inl (hdd.trans (div_self hpeak0.ne'))
    · exact Or.inr ⟨worst.start, worst.trough, peak, low, by omega, hpeak,
        hlow, hdd⟩
  · intro r hr
    rcases hr with rfl | ⟨i, j, ci, cj, hij, hci, hcj, rfl⟩
    · exact h.le_one
    · exact h.all_le hpos hij.le hci hcj

/-- The candles from the worst start to one past its trough. -/
def worstWindow (closes : List K) (worst : Drawdown K) : List K :=
  (closes.drop worst.start).take (worst.trough + 2 - worst.start)

omit [IsStrictOrderedRing K] in
/-- Over its first close, that window has the worst ratio as its minimum. -/
theorem Worst.min_window {closes : List K} {worst : Drawdown K} {peak : K}
    (h : Worst closes (closes.length - 1) worst)
    (hpos : ∀ c ∈ closes, 0 < c) (hpeak : closes[worst.start]? = some peak) :
    ((worstWindow closes worst).map fun c => c / peak).min?
      = some worst.drawdown := by
  obtain ⟨peak', low, hpeak', hlow, hdd⟩ := h.attained
  obtain rfl : peak = peak' := Option.some.inj (hpeak.symm.trans hpeak')
  have horder := h.order
  apply List.min?_eq_some_iff.2
  constructor
  · rw [hdd]
    apply List.mem_map_of_mem
    apply List.mem_of_getElem? (i := worst.trough - worst.start)
    rw [worstWindow, List.getElem?_take_of_lt (by omega), List.getElem?_drop,
      Nat.add_sub_of_le horder]
    exact hlow
  · intro x hx
    obtain ⟨c, hc, rfl⟩ := List.mem_map.1 hx
    obtain ⟨d, hd⟩ := List.getElem?_of_mem (List.mem_of_mem_take hc)
    rw [List.getElem?_drop] at hd
    exact h.all_le hpos (Nat.le_add_right _ d) hpeak hd

/-- The returned path begins at 1, is a stretch of the closes over their
first, and its minimum is the least ratio of two closes in order (or 1);
an account that any decline of the window liquidates is liquidated on
it. -/
theorem stress_path_worst {closes : List K} (hlen : 48 ≤ closes.length)
    (hpos : ∀ c ∈ closes, 0 < c) :
    ∃ path start dd peak n, worstDrawdownPath closes = .ok (path, start, dd)
      ∧ IsLeast {r | r = 1 ∨ ∃ (i j : Nat) (ci cj : K), i < j
          ∧ closes[i]? = some ci ∧ closes[j]? = some cj ∧ r = cj / ci} dd
      ∧ path.head? = some 1
      ∧ closes[start]? = some peak
      ∧ path = ((closes.drop start).take n).map (fun c => c / peak)
      ∧ path.min? = some dd
      ∧ ∀ (pos : Position K) (s : Nat) (cs : K), 0 ≤ pos.volatileAdjUsd →
          closes[s]? = some cs →
          (replayNoAction pos ((closes.drop s).map fun c => c / cs)).liquidated
            = true →
          (replayNoAction pos path).liquidated = true := by
  obtain ⟨c₀, hc₀⟩ : ∃ c₀, closes[0]? = some c₀ :=
    ⟨closes[0], List.getElem?_eq_getElem (by omega)⟩
  have hc₀pos : 0 < c₀ := hpos c₀ (List.mem_of_getElem? hc₀)
  obtain ⟨worst, hworst, hspec⟩ :=
    worstFrom_spec (List.drop_zero (l := closes)) hpos
      (Worst.init hc₀ hc₀pos.ne')
  rw [Nat.zero_max] at hspec
  obtain ⟨peak, -, hpeak, -, -⟩ := hspec.attained
  have hpeak0 : 0 < peak := hpos peak (List.mem_of_getElem? hpeak)
  have hmin := hspec.min_window hpos hpeak
  refine ⟨(worstWindow closes worst).map fun c => c / peak, worst.start,
    worst.drawdown, peak, worst.trough + 2 - worst.start, ?_,
    hspec.isLeast hpos, ?_, hpeak, rfl, hmin, ?_⟩
  · rw [worstDrawdownPath, if_neg (by omega), hworst, ok_bind,
      List.getD_eq_getElem?_getD, hpeak, Option.getD_some]
    show (List.mapM (fun c => pyDiv c peak) _ >>= fun path =>
      pure (path, worst.start, worst.drawdown)) = _
    rw [mapM_pyDiv hpeak0.ne', ok_bind]
    rfl
  · have horder := hspec.order
    rw [worstWindow, List.head?_map, List.head?_take, if_neg (by omega),
      List.head?_drop, hpeak, Option.map_some, div_self hpeak0.ne']
  · intro pos s cs hvol hcs hliq
    obtain ⟨k, hk, hunder⟩ := (noActionFrom_liquidated_iff 0 ⊤).1 hliq
    obtain ⟨c, hc, rfl⟩ := List.mem_map.1 hk
    obtain ⟨d, hd⟩ := List.getElem?_of_mem hc
    rw [List.getElem?_drop] at hd
    have hle : worst.drawdown ≤ c / cs :=
      hspec.all_le hpos (Nat.le_add_right s d) hcs hd
    obtain ⟨hborrow, hadj⟩ := hfAt_lt_one_iff.1 hunder
    refine (noActionFrom_liquidated_iff 0 ⊤).2
      ⟨worst.drawdown, (List.min?_eq_some_iff.1 hmin).1, ?_⟩
    exact hfAt_lt_one_iff.2
      ⟨hborrow, (adjAt_mono hvol hle).trans_lt hadj⟩

/-- Two days of hourly closes: one at 2, then 1. -/
def halved : List ℚ := 2 :: List.replicate 47 1

/-- A price that halves has a path that falls to a half. -/
theorem stress_path_worst_halved :
    ∃ path start dd, worstDrawdownPath halved = .ok (path, start, dd)
      ∧ path.head? = some 1 ∧ path.min? = some dd ∧ dd ≤ 1 / 2 := by
  obtain ⟨path, start, dd, peak, n, hpath, hleast, hhead, -, -, hmin, -⟩ :=
    stress_path_worst (show 48 ≤ halved.length by decide +kernel)
      (by decide +kernel)
  exact ⟨path, start, dd, hpath, hhead, hmin,
    hleast.2 (Or.inr ⟨0, 1, 2, 1, Nat.zero_lt_one, rfl, rfl, rfl⟩)⟩

end VenusGuard

end Proofstand
