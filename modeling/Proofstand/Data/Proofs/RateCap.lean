/-
How many calls BscScan gets within a second.

A bucket of capacity `n + 1` is a schedule with a tolerance of `n`
intervals (`serve_schedule`): what is due is the moment from which
refilling alone would have made up its tokens. So six takes return within
a second exactly where one finds two tokens or more, the next call comes
within three quarters of a second and four more within the second
(`crowds`); elsewhere the cap of five holds however long the sleeps
last.

# Tokens as time

A level is the time since the schedule's due moment, in tokens, up to the
capacity (`level_eq`). A full bucket is a schedule whose due moment lies
its whole tolerance back or more, and how much more does not show. A take
that finds a token moves the due moment on by one interval; one that does
not waits for it. So both branches of a take are one step of the
schedule (`serve_schedule`), and the theorem about schedules applies with
`n` the capacity less one.

# The cap

The numbers are those of the source: a rate of four, a capacity of four,
and a cap of five within any closed second. The condition looks at the
punctual run of the same arrivals, so it can be computed from the calls
(`crowds`).
-/
import Proofstand.Lib.Pacing
import Proofstand.Data.Http

namespace Proofstand.TokenBucket

open Pacing

variable {K : Type} [Field K] [LinearOrder K] [IsStrictOrderedRing K]

-- ======================================================== as a schedule

/-- The schedule of a bucket. -/
def schedule (b : TokenBucket K) : Schedule K where
  due := b.last - b.tokens / b.rate
  free := b.last

omit [IsStrictOrderedRing K] in
@[simp] theorem serve_rate (b : TokenBucket K) (call : K × K) :
    (b.serve call).rate = b.rate := by
  unfold serve take
  by_cases h : b.level (max call.1 b.last) < 1
  · simp [h]
  · simp [h]

omit [IsStrictOrderedRing K] in
@[simp] theorem serve_capacity (b : TokenBucket K) (call : K × K) :
    (b.serve call).capacity = b.capacity := by
  unfold serve take
  by_cases h : b.level (max call.1 b.last) < 1
  · simp [h]
  · simp [h]

omit [IsStrictOrderedRing K] in
theorem serve_of_lt {b : TokenBucket K} {call : K × K}
    (h : b.level (max call.1 b.last) < 1) :
    b.serve call = { b with
      tokens := 0
      last := max call.1 b.last
        + ((1 - b.level (max call.1 b.last)) / b.rate + call.2) } :=
  if_pos h

omit [IsStrictOrderedRing K] in
theorem serve_of_not_lt {b : TokenBucket K} {call : K × K}
    (h : ¬ b.level (max call.1 b.last) < 1) :
    b.serve call = { b with
      tokens := b.level (max call.1 b.last) - 1
      last := max call.1 b.last } :=
  if_neg h

omit [IsStrictOrderedRing K] in
/-- The level is what has come in since the schedule's due moment, up to the
capacity. -/
theorem level_eq (b : TokenBucket K) (now : K) :
    b.level now = min b.capacity ((now - b.schedule.due) * b.rate) := by
  have hne : b.rate ≠ 0 := b.rate_pos.ne'
  have hrefill : b.tokens + (now - b.last) * b.rate
      = (now - b.schedule.due) * b.rate := by
    unfold schedule
    field_simp
    ring
  rw [level, hrefill]

/-- The level is `k` or more once `k` intervals have passed since the due
moment. -/
theorem le_level_iff {b : TokenBucket K} {k : K} (hk : k ≤ b.capacity)
    (now : K) :
    k ≤ b.level now ↔ b.schedule.due + k * (1 / b.rate) ≤ now := by
  rw [level_eq, le_min_iff, and_iff_right hk, ← div_le_iff₀ b.rate_pos,
    le_sub_iff_add_le', mul_one_div]

omit [IsStrictOrderedRing K] in
/-- A take that waits returns when its token is due, and as much later as
it sleeps longer. -/
theorem serve_last_of_lt {b : TokenBucket K} (hone : 1 ≤ b.capacity)
    {call : K × K} (h : b.level (max call.1 b.last) < 1) :
    (b.serve call).tokens = 0
      ∧ (b.serve call).last = b.schedule.due + 1 / b.rate + call.2 := by
  have hne : b.rate ≠ 0 := b.rate_pos.ne'
  have hlevel : b.level (max call.1 b.last)
      = (max call.1 b.last - b.schedule.due) * b.rate := by
    rw [level_eq] at h ⊢
    rcases min_lt_iff.1 h with hcap | hrefill
    · exact absurd hone (not_le.2 hcap)
    · exact min_eq_right (hrefill.le.trans hone)
  rw [serve_of_lt h]
  refine ⟨rfl, ?_⟩
  show max call.1 b.last + _ = _
  rw [hlevel]
  field_simp
  ring

/-- What a take that does not wait leaves. -/
theorem sub_level_eq {b : TokenBucket K} {n : Nat}
    (hcap : b.capacity = n + 1) (now : K) :
    now - (b.level now - 1) / b.rate
      = max (now - n * (1 / b.rate)) (b.schedule.due + 1 / b.rate) := by
  have hpos := b.rate_pos
  have hne : b.rate ≠ 0 := hpos.ne'
  rw [level_eq, hcap]
  rcases le_total ((n : K) + 1) ((now - b.schedule.due) * b.rate)
    with hfull | hpart
  · have hdue : b.schedule.due + 1 / b.rate ≤ now - n * (1 / b.rate) := by
      rw [← div_le_iff₀ hpos, add_div] at hfull
      rw [mul_one_div]
      linarith
    rw [min_eq_left hfull, max_eq_left hdue]
    ring
  · have hdue : now - n * (1 / b.rate) ≤ b.schedule.due + 1 / b.rate := by
      rw [← le_div_iff₀ hpos, add_div] at hpart
      rw [mul_one_div]
      linarith
    rw [min_eq_right hpart, max_eq_right hdue]
    field_simp
    ring

/-- A take is a call served, late if it slept too long. -/
theorem serve_schedule {b : TokenBucket K} {n : Nat}
    (hcap : b.capacity = n + 1) (call : K × K) (ho : 0 ≤ call.2) :
    (b.serve call).schedule
      = b.schedule.serve (1 / b.rate) (n * (1 / b.rate)) call.1
          (if b.level (max call.1 b.last) < 1 then call.2 else 0) := by
  have hn : (0 : K) ≤ n := Nat.cast_nonneg n
  have hone : (1 : K) ≤ b.capacity := by linarith
  have hinterval : 0 < 1 / b.rate := one_div_pos.2 b.rate_pos
  have htol : 0 ≤ (n : K) * (1 / b.rate) := mul_nonneg hn hinterval.le
  have hdue := le_level_iff hone (max call.1 b.last)
  rw [one_mul] at hdue
  by_cases hwait : b.level (max call.1 b.last) < 1
  · have hlater : max call.1 b.last < b.schedule.due + 1 / b.rate :=
      not_le.1 fun hle => absurd (hdue.2 hle) (not_le.2 hwait)
    obtain ⟨htokens, hlast⟩ := serve_last_of_lt hone hwait
    rw [if_pos hwait, serve_early htol ho hlater, schedule, htokens,
      zero_div, sub_zero, hlast]
  · have hnow : b.schedule.due + 1 / b.rate ≤ max call.1 b.last :=
      hdue.1 (not_lt.1 hwait)
    rw [if_neg hwait, serve_due htol hnow, schedule, serve_of_not_lt hwait]
    exact congrArg (Schedule.mk · _) (sub_level_eq hcap _)

-- ================================================================= runs

/-- The calls as the schedule sees them: a take that does not sleep is not
late. -/
def effective (b : TokenBucket K) : List (K × K) → List (K × K)
  | [] => []
  | call :: calls =>
      (call.1, if b.level (max call.1 b.last) < 1 then call.2 else 0)
        :: (b.serve call).effective calls

omit [IsStrictOrderedRing K] in
theorem effective_arrivals (b : TokenBucket K) (calls : List (K × K)) :
    (b.effective calls).map Prod.fst = calls.map Prod.fst := by
  induction calls generalizing b with
  | nil => rfl
  | cons call calls ih => exact congrArg (call.1 :: ·) (ih (b.serve call))

omit [IsStrictOrderedRing K] in
theorem effective_late {b : TokenBucket K} {calls : List (K × K)}
    (hlate : ∀ c ∈ calls, 0 ≤ c.2) : ∀ c ∈ b.effective calls, 0 ≤ c.2 := by
  induction calls generalizing b with
  | nil => exact fun _ hc => by cases hc
  | cons call calls ih =>
      intro c hc
      rcases List.mem_cons.1 hc with rfl | hc
      · show 0 ≤ if _ then call.2 else 0
        split
        · exact hlate call List.mem_cons_self
        · exact le_refl _
      · exact ih (fun c hc => hlate c (List.mem_cons_of_mem _ hc)) c hc

omit [IsStrictOrderedRing K] in
theorem effective_exact (b : TokenBucket K) (arrivals : List K) :
    b.effective (arrivals.map fun a => (a, 0))
      = arrivals.map fun a => (a, 0) := by
  induction arrivals generalizing b with
  | nil => rfl
  | cons a as ih => rw [List.map_cons, effective, ite_self, ih]

/-- A bucket's takes return as its schedule serves the calls. -/
theorem completions_eq {b : TokenBucket K} {n : Nat} {T : K}
    (hcap : b.capacity = n + 1) (hT : 1 / b.rate = T) {calls : List (K × K)}
    (hlate : ∀ c ∈ calls, 0 ≤ c.2) :
    b.completions calls
      = b.schedule.served T (n * T) (b.effective calls) := by
  induction calls generalizing b with
  | nil => rfl
  | cons call calls ih =>
      have hserve := serve_schedule hcap call (hlate call List.mem_cons_self)
      rw [hT] at hserve
      rw [completions, effective, Schedule.served, ← hserve]
      refine congrArg ((b.serve call).last :: ·) (ih ?_ ?_ ?_)
      · rw [serve_capacity, hcap]
      · rw [serve_rate, hT]
      · exact fun c hc => hlate c (List.mem_cons_of_mem _ hc)

-- ============================================================== the cap

/-- In a run that never sleeps too long, some take finds two tokens, the
next call comes within three quarters of a second and four more within
the second. -/
def crowds (b : TokenBucket K) : List K → Bool
  | [] => false
  | a :: as =>
      (2 ≤ b.level (max a b.last) && (as[0]?.any fun a' => a' ≤ a + 3 / 4)
        && as[4]?.any fun a' => a' ≤ a + 1)
      || (b.serve (a, 0)).crowds as

omit [Field K] [IsStrictOrderedRing K] in
theorem any_le_iff {o : Option K} {x : K} :
    (o.any fun a => a ≤ x) = true ↔ ∃ a, o = some a ∧ a ≤ x := by
  cases o with
  | none => simp
  | some a => simp

theorem crowds_iff {b : TokenBucket K} (hcap : b.capacity = 4)
    (hrate : b.rate = 4) (arrivals : List K) :
    b.crowds arrivals = true ↔ Bunched 3 (1 / 4) b.schedule arrivals := by
  have hcap' : b.capacity = (3 : Nat) + 1 := by
    rw [hcap]
    norm_num
  have htwo : (2 : K) ≤ b.capacity := by
    rw [hcap]
    norm_num
  have htol : ((3 : Nat) : K) * (1 / 4) = 3 / 4 := by norm_num
  have hwidth : (((3 : Nat) : K) + 1) * (1 / 4) = 1 := by norm_num
  induction arrivals generalizing b with
  | nil => simp [crowds, Bunched]
  | cons a as ih =>
      have hserve := serve_schedule hcap' (a, 0) (le_refl _)
      rw [ite_self, hrate] at hserve
      have hlevel := le_level_iff htwo (max a b.last)
      rw [hrate] at hlevel
      have htail : (b.serve (a, 0)).crowds as = true
          ↔ Bunched 3 (1 / 4) (b.serve (a, 0)).schedule as :=
        ih (by rw [serve_capacity, hcap]) (by rw [serve_rate, hrate])
          (by rw [serve_capacity, hcap']) (by rwa [serve_capacity])
      rw [crowds, Bunched, Bool.or_eq_true, Bool.and_eq_true,
        Bool.and_eq_true, decide_eq_true_eq, hlevel, htail, hserve,
        any_le_iff, any_le_iff, htol, hwidth, and_assoc]
      rfl

/-- For calls in order of their moments: no second sees more than five
takes return, however long the sleeps last, exactly where the calls do not
crowd. -/
theorem completions_capped_iff (created : K) {arrivals : List K}
    (hsorted : arrivals.Pairwise (· ≤ ·))
    (hafter : ∀ a ∈ arrivals, created ≤ a) :
    (∀ calls : List (K × K), calls.map Prod.fst = arrivals →
      (∀ c ∈ calls, 0 ≤ c.2) → ∀ t,
        ((bscScanBucket created).completions calls).countP
          (fun c => t ≤ c ∧ c ≤ t + 1) ≤ 5)
      ↔ (bscScanBucket created).crowds arrivals = false := by
  have hcap : (bscScanBucket created).capacity = (3 : Nat) + 1 := by
    show (4 : K) = _
    norm_num
  have hwidth : (((3 : Nat) : K) + 1) * (1 / 4) = 1 := by norm_num
  have hcrowds := crowds_iff (b := bscScanBucket created) rfl rfl arrivals
  constructor
  · intro hcapped
    by_contra hnot
    obtain ⟨i, x, y, hx, hy, hle⟩ := exists_of_bunched (by decide)
      (by norm_num) hsorted (hcrowds.1 (Bool.not_eq_false _ ▸ hnot))
    have honTime : ∀ c ∈ arrivals.map fun a => (a, (0 : K)), 0 ≤ c.2 := by
      simp
    have hexact := hcapped (arrivals.map fun a => (a, 0))
      (by simp [Function.comp_def]) honTime
    rw [completions_eq hcap rfl honTime, effective_exact] at hexact
    rw [hwidth] at hle
    exact absurd ((capped_iff (served_pairwise _ _)).1 hexact i x y hx hy)
      (not_lt.2 hle)
  · intro hnot calls heq
    subst heq
    intro hlate
    rw [← effective_arrivals (bscScanBucket created)]
      at hsorted hafter hnot hcrowds
    have hcapped := capped_of_not_bunched
      (s := (bscScanBucket created).schedule) (n := 3) (T := 1 / 4)
      (by norm_num) (effective_late hlate) hsorted (Or.inr hafter)
      (fun hbunched => by simp [hcrowds.2 hbunched] at hnot)
    rw [hwidth] at hcapped
    rw [completions_eq hcap rfl hlate]
    exact hcapped

/-- Four calls at once and two more a second and a quarter later. -/
def fourAndTwo : List ℚ := [0, 0, 0, 0, 5 / 4, 5 / 4]

theorem completions_fourAndTwo :
    (bscScanBucket (0 : ℚ)).crowds fourAndTwo = false
      ∧ ∀ t, ((bscScanBucket (0 : ℚ)).completions
          (fourAndTwo.map fun a => (a, 0))).countP
            (fun c => t ≤ c ∧ c ≤ t + 1) ≤ 5 := by
  have hnot : (bscScanBucket (0 : ℚ)).crowds fourAndTwo = false := by
    decide +kernel
  have hsorted : fourAndTwo.Pairwise (· ≤ ·) := by decide +kernel
  have hafter : ∀ a ∈ fourAndTwo, (0 : ℚ) ≤ a := by decide +kernel
  refine ⟨hnot, ?_⟩
  exact (completions_capped_iff 0 hsorted hafter).2 hnot _ (by decide +kernel)
    (by decide +kernel)

/-- Six calls at once all return within half a second. -/
theorem completions_six_at_once :
    (bscScanBucket (0 : ℚ)).completions (List.replicate 6 (0, 0))
        = [0, 0, 0, 0, 1 / 4, 1 / 2]
      ∧ ¬ ∀ t, ((bscScanBucket (0 : ℚ)).completions
          (List.replicate 6 (0, 0))).countP
            (fun c => t ≤ c ∧ c ≤ t + 1) ≤ 5 := by
  have hruns : (bscScanBucket (0 : ℚ)).completions (List.replicate 6 (0, 0))
      = [0, 0, 0, 0, 1 / 4, 1 / 2] := by decide +kernel
  refine ⟨hruns, ?_⟩
  rw [hruns]
  intro h
  exact absurd (h 0) (by decide +kernel)

end Proofstand.TokenBucket
