/-
Calls paced one interval apart, with some tolerance for bursts, and how
many of them a sliding window can hold.

A schedule has the moment its next call would be due were the calls
evenly spaced; a call may come up to the tolerance before, and waits
otherwise. The calls of a window are those between two that lie an index
apart (`capped_iff`). With a tolerance of `n` intervals, `n + 1` intervals
hold `n + 3` calls exactly where a call comes two intervals or more after
the due moment and the next ones come soon enough (`capped_of_not_bunched`,
`exists_of_bunched`), in every run that waits at least as long as asked.

# What the induction carries

Lateness is an adversary: a call may be served later than it has to be,
and that moves all later ones. So a run is compared with the same calls on
a schedule that is never late (`Schedule.Before`), which stays before it
call by call (`Schedule.Before.serve`). The second invariant is
`Schedule.Prompt`: either the schedule is at its due moment, or every
further call finds it free. It holds of arrivals in order, and it is what
makes a call that was served with an interval to spare one that did not
wait (`head_of_served`).

# The bunch

A window that holds one call too many has its first call served at once,
two intervals after the due moment or more, the next within the tolerance
of it and the rest before the window closes. `Bunched` says that of the
arrivals on the punctual schedule, so it is a condition on what comes and
not on what is served. One direction follows from the comparison
(`lt_of_not_bunched`); the other serves a bunch with no lateness at all
and counts (`exists_of_bunched`).
-/
import Proofstand.Lib.Numerals
import Proofstand.Lib.OrderStatistic
import Mathlib.Algebra.Order.Field.Basic
import Mathlib.Tactic

namespace Proofstand.Pacing

open OrderStatistic (countLe lt_countLe_iff countLe_mono)

variable {K : Type} [Field K] [LinearOrder K] [IsStrictOrderedRing K]

-- ============================================================== windows

/-- No closed window of the width holds more than `k` of the moments. -/
def Capped (k : Nat) (width : K) (l : List K) : Prop :=
  ∀ t, l.countP (fun c => t ≤ c ∧ c ≤ t + width) ≤ k

omit [IsStrictOrderedRing K] in
/-- A window holds at most what has come by its end. -/
theorem countP_window_le (t width : K) (l : List K) :
    l.countP (fun c => t ≤ c ∧ c ≤ t + width) ≤ countLe l (t + width) := by
  apply List.countP_mono_left
  intro c _ hc
  rw [decide_eq_true_eq] at hc ⊢
  exact hc.2

/-- Moments in order are capped when every two of them `k` places apart
are further apart than the width. -/
theorem capped_iff {k : Nat} {width : K} {l : List K}
    (h : l.Pairwise (· ≤ ·)) :
    Capped k width l ↔ ∀ i x y, l[i]? = some x → l[i + k]? = some y →
      x + width < y := by
  constructor
  · intro hcap i x y hx hy
    by_contra hle
    -- the entries from `x` on that `x + width` bounds are in the window
    have hsorted : (l.drop i).Pairwise (· ≤ ·) :=
      h.sublist (List.drop_sublist i l)
    have hmany : k < countLe (l.drop i) (x + width) := by
      rw [lt_countLe_iff hsorted]
      exact ⟨y, by rw [List.getElem?_drop]; exact hy, not_lt.1 hle⟩
    have hhead : ∀ c ∈ l.drop i, x ≤ c := by
      rw [List.drop_eq_getElem?_toList_append, hx] at hsorted ⊢
      intro c hc
      rcases List.mem_cons.1 hc with rfl | hc
      · exact le_refl _
      · exact (List.pairwise_cons.1 hsorted).1 c hc
    have hwindow : countLe (l.drop i) (x + width)
        ≤ (l.drop i).countP (fun c => x ≤ c ∧ c ≤ x + width) := by
      apply List.countP_mono_left
      intro c hc hle
      rw [decide_eq_true_eq] at hle ⊢
      exact ⟨hhead c hc, hle⟩
    have := hcap x
    have := List.Sublist.countP_le
      (p := fun c => decide (x ≤ c ∧ c ≤ x + width)) (List.drop_sublist i l)
    omega
  · intro hspread t
    induction l with
    | nil => exact Nat.zero_le _
    | cons a l ih =>
        obtain ⟨ha, hl⟩ := List.pairwise_cons.1 h
        by_cases hin : t ≤ a ∧ a ≤ t + width
        · by_contra hmany
          have hcount : k < countLe (a :: l) (a + width) :=
            (not_le.1 hmany).trans_le ((countP_window_le t width _).trans
              (countLe_mono _ (add_le_add_left hin.1 width)))
          obtain ⟨y, hy, hle⟩ := (lt_countLe_iff h).1 hcount
          rw [← Nat.zero_add k] at hy
          exact absurd hle (not_le.2 (hspread 0 a y rfl hy))
        · rw [List.countP_cons_of_neg (by simpa using hin)]
          apply ih hl
          intro i x y hx hy
          apply hspread (i + 1) x y hx
          rw [Nat.add_right_comm]
          exact hy

-- ============================================================= schedules

/-- When the next call would be due were the calls evenly spaced, and when
the last one was served. -/
structure Schedule (K : Type) where
  due : K
  free : K

/-- A call served, `late` after the moment it had to wait for. -/
def Schedule.serve (interval tolerance : K) (s : Schedule K)
    (arrival late : K) : Schedule K :=
  let now := max arrival s.free
  let due := max (now - tolerance) (s.due + interval) + late
  ⟨due, max now due⟩

/-- The moments at which calls, each with its lateness, are served. -/
def Schedule.served (interval tolerance : K) (s : Schedule K) :
    List (K × K) → List K
  | [] => []
  | c :: cs =>
      let s' := s.serve interval tolerance c.1 c.2
      s'.free :: s'.served interval tolerance cs

/-- One schedule is no further than another. -/
structure Schedule.Before (s s' : Schedule K) : Prop where
  due : s.due ≤ s'.due
  free : s.free ≤ s'.free

/-- Every further call finds the schedule free, unless the next is not
due. -/
def Schedule.Prompt (s : Schedule K) (arrivals : List K) : Prop :=
  s.due = s.free ∨ ∀ a ∈ arrivals, s.free ≤ a

section

variable {T τ : K} {s s' : Schedule K} {a o : K}

omit [IsStrictOrderedRing K] in
/-- A call is not served before it comes, -/
theorem arrival_le_serve : a ≤ (s.serve T τ a o).free :=
  (le_max_left a s.free).trans (le_max_left _ _)

omit [IsStrictOrderedRing K] in
/-- nor before the one in front of it, -/
theorem free_le_serve : s.free ≤ (s.serve T τ a o).free :=
  (le_max_right a s.free).trans (le_max_left _ _)

omit [IsStrictOrderedRing K] in
/-- nor before the due moment it leaves. -/
theorem due_le_serve : (s.serve T τ a o).due ≤ (s.serve T τ a o).free :=
  le_max_right _ _

/-- It moves the due moment by an interval at least, -/
theorem due_add_le_serve (ho : 0 ≤ o) :
    s.due + T ≤ (s.serve T τ a o).due :=
  (le_max_right _ _).trans (le_add_of_nonneg_right ho)

/-- and to within the tolerance of the moment it could be served. -/
theorem sub_tolerance_le_serve (ho : 0 ≤ o) :
    max a s.free - τ ≤ (s.serve T τ a o).due :=
  (le_max_left _ _).trans (le_add_of_nonneg_right ho)

/-- A call before its due moment is served then. -/
theorem serve_early (hτ : 0 ≤ τ) (ho : 0 ≤ o)
    (h : max a s.free < s.due + T) :
    s.serve T τ a o = ⟨s.due + T + o, s.due + T + o⟩ := by
  have hdue : max (max a s.free - τ) (s.due + T) = s.due + T :=
    max_eq_right (by linarith)
  have hfree : max (max a s.free) (s.due + T + o) = s.due + T + o :=
    max_eq_right (by linarith)
  show Schedule.mk (max _ _ + o) (max _ (max _ _ + o)) = _
  rw [hdue, hfree]

/-- A call after it is served at once. -/
theorem serve_due (hτ : 0 ≤ τ) (h : s.due + T ≤ max a s.free) :
    s.serve T τ a 0
      = ⟨max (max a s.free - τ) (s.due + T), max a s.free⟩ := by
  have hfree : max (max a s.free) (max (max a s.free - τ) (s.due + T))
      = max a s.free := max_eq_left (max_le (by linarith) h)
  show Schedule.mk (max _ _ + 0) (max _ (max _ _ + 0)) = _
  rw [add_zero, hfree]

/-- A call in time stays so on the earlier of two schedules. -/
theorem Schedule.Before.serve (h : s.Before s') (ho : 0 ≤ o) :
    (s.serve T τ a 0).Before (s'.serve T τ a o) := by
  have hnow : max a s.free ≤ max a s'.free := max_le_max_left a h.free
  have hdue : (s.serve T τ a 0).due ≤ (s'.serve T τ a o).due := by
    show max _ _ + 0 ≤ max _ _ + o
    exact add_le_add (max_le_max (sub_le_sub_right hnow τ)
      (add_le_add_left h.due T)) ho
  exact ⟨hdue, max_le_max hnow hdue⟩

/-- A prompt schedule stays one while the calls come in order. -/
theorem Schedule.Prompt.serve {as : List K} (hT : 0 < T) (ho : 0 ≤ o)
    (hsorted : (a :: as).Pairwise (· ≤ ·)) (h : s.Prompt (a :: as)) :
    (s.serve T τ a o).Prompt as := by
  by_cases hwait : max a s.free ≤ (s.serve T τ a o).due
  · exact Or.inl (max_eq_right hwait).symm
  · -- served at once: then it did not find the schedule busy
    have hfree : (s.serve T τ a o).free = max a s.free :=
      max_eq_left (not_le.1 hwait).le
    have hnow : s.free ≤ a := by
      rcases h with heq | hall
      · by_contra hbusy
        have := due_add_le_serve (s := s) (a := a) (T := T) (τ := τ) ho
        rw [max_eq_right (not_le.1 hbusy).le] at hwait
        linarith
      · exact hall a List.mem_cons_self
    refine Or.inr ?_
    intro b hb
    rw [hfree, max_eq_left hnow]
    exact (List.pairwise_cons.1 hsorted).1 b hb

-- ================================================================ runs

omit [IsStrictOrderedRing K] in
theorem served_ge {cs : List (K × K)} {c : K} (h : c ∈ s.served T τ cs) :
    s.free ≤ c := by
  induction cs generalizing s with
  | nil => cases h
  | cons call cs ih =>
      rcases List.mem_cons.1 h with rfl | h
      · exact free_le_serve
      · exact free_le_serve.trans (ih h)

omit [IsStrictOrderedRing K] in
theorem served_pairwise (s : Schedule K) (cs : List (K × K)) :
    (s.served T τ cs).Pairwise (· ≤ ·) := by
  induction cs generalizing s with
  | nil => exact List.Pairwise.nil
  | cons call cs ih =>
      exact List.pairwise_cons.2 ⟨fun _ hc => served_ge hc, ih _⟩

omit [IsStrictOrderedRing K] in
/-- No call is served before it is made. -/
theorem served_arrival {cs : List (K × K)} {k : Nat} {y : K}
    (h : (s.served T τ cs)[k]? = some y) :
    ∃ b, (cs.map Prod.fst)[k]? = some b ∧ b ≤ y := by
  induction cs generalizing s k with
  | nil => cases h
  | cons call cs ih =>
      cases k with
      | zero =>
          cases h
          exact ⟨call.1, rfl, arrival_le_serve⟩
      | succ k => exact ih h

/-- Every call moves the due moment on by an interval. -/
theorem due_le_served {cs : List (K × K)} {k : Nat} {y : K}
    (hlate : ∀ c ∈ cs, 0 ≤ c.2) (h : (s.served T τ cs)[k]? = some y) :
    s.due + (k + 1) * T ≤ y := by
  induction cs generalizing s k with
  | nil => cases h
  | cons call cs ih =>
      have hdue : s.due + T ≤ (s.serve T τ call.1 call.2).due :=
        due_add_le_serve (hlate call List.mem_cons_self)
      cases k with
      | zero =>
          cases h
          have := due_le_serve (s := s) (T := T) (τ := τ) (a := call.1)
            (o := call.2)
          push_cast
          linarith
      | succ k =>
          have := ih (fun c hc => hlate c (List.mem_cons_of_mem _ hc)) h
          push_cast
          linarith

/-- Calls that all come by `B` are served by `B`, while the tolerance
lasts. -/
theorem served_le {as : List K} {k : Nat} {b B : K} (hT : 0 ≤ T)
    (hk : k * T ≤ τ) (hdue : s.due + (k + 1) * T ≤ B) (hfree : s.free ≤ B)
    (hsorted : as.Pairwise (· ≤ ·)) (hb : as[k]? = some b) (hbB : b ≤ B) :
    ∃ y, (s.served T τ (as.map fun a => (a, 0)))[k]? = some y ∧ y ≤ B := by
  induction k generalizing s as with
  | zero =>
      cases as with
      | nil => cases hb
      | cons a as =>
          cases hb
          have hnow : max b s.free ≤ B := max_le hbB hfree
          refine ⟨_, rfl, max_le hnow ?_⟩
          show max (max b s.free - τ) (s.due + T) + 0 ≤ B
          push_cast at hk hdue
          rw [add_zero]
          exact max_le (by linarith) (by linarith)
  | succ k ih =>
      cases as with
      | nil => cases hb
      | cons a as =>
          obtain ⟨ha, hl⟩ := List.pairwise_cons.1 hsorted
          have haB : a ≤ B := (ha b (List.mem_of_getElem? hb)).trans hbB
          have hnow : max a s.free ≤ B := max_le haB hfree
          have hkT : 0 ≤ (k : K) * T := mul_nonneg (Nat.cast_nonneg k) hT
          push_cast at hk hdue
          -- one interval of the tolerance is used up
          have hdue' : (s.serve T τ a 0).due + (k + 1) * T ≤ B := by
            show max _ _ + 0 + _ ≤ B
            rw [add_zero, max_add]
            exact max_le (by linarith) (by linarith)
          have hdueB : (s.serve T τ a 0).due ≤ B := by linarith
          have hfree' : (s.serve T τ a 0).free ≤ B := max_le hnow hdueB
          exact ih (by linarith) hdue' hfree' hl hb

end

-- =============================================================== bunches

/-- With a tolerance of `n` intervals, some call comes two intervals after
the due moment, the next within the tolerance of it and `n + 1` more
within one interval more. -/
def Bunched (n : Nat) (T : K) (s : Schedule K) : List K → Prop
  | [] => False
  | a :: as =>
      (s.due + 2 * T ≤ max a s.free ∧ (∃ b, as[0]? = some b ∧ b ≤ a + n * T)
        ∧ ∃ b, as[n + 1]? = some b ∧ b ≤ a + (n + 1) * T)
      ∨ Bunched n T (s.serve T (n * T) a 0) as

section

variable {n : Nat} {T : K} {s₀ s : Schedule K}

/-- A call served as late as so many later ones allow was served at once,
and began a bunch. -/
theorem head_of_served {call : K × K} {cs : List (K × K)} {y : K}
    (hT : 0 < T) (hlate : ∀ c ∈ call :: cs, 0 ≤ c.2)
    (hprompt : s.Prompt ((call :: cs).map Prod.fst))
    (hy : ((s.serve T (n * T) call.1 call.2).served T (n * T) cs)[n + 1]?
      = some y)
    (hle : y ≤ (s.serve T (n * T) call.1 call.2).free + (n + 1) * T) :
    s.free ≤ call.1 ∧ s.due + 2 * T ≤ call.1
      ∧ (∃ b, (cs.map Prod.fst)[0]? = some b ∧ b ≤ call.1 + n * T)
      ∧ ∃ b, (cs.map Prod.fst)[n + 1]? = some b
        ∧ b ≤ call.1 + (n + 1) * T := by
  have ho : 0 ≤ call.2 := hlate call List.mem_cons_self
  have hlate' : ∀ c ∈ cs, 0 ≤ c.2 := fun c hc =>
    hlate c (List.mem_cons_of_mem _ hc)
  have hdue := due_add_le_serve (s := s) (a := call.1) (T := T)
    (τ := n * T) ho
  have hmore := due_le_served hlate' hy
  push_cast at hmore
  -- an interval to spare, so it did not wait
  have hspare : (s.serve T (n * T) call.1 call.2).due + T
      ≤ (s.serve T (n * T) call.1 call.2).free := by linarith
  have hnow : (s.serve T (n * T) call.1 call.2).free
      = max call.1 s.free := by
    apply max_eq_left
    by_contra hwait
    have : (s.serve T (n * T) call.1 call.2).free
        = (s.serve T (n * T) call.1 call.2).due :=
      max_eq_right (not_le.1 hwait).le
    linarith
  have hfree : s.free ≤ call.1 := by
    rcases hprompt with heq | hall
    · by_contra hbusy
      rw [max_eq_right (not_le.1 hbusy).le] at hnow
      linarith
    · exact hall call.1 List.mem_cons_self
  rw [max_eq_left hfree] at hnow
  refine ⟨hfree, by linarith, ?_, ?_⟩
  · cases cs with
    | nil => cases hy
    | cons next cs =>
        have htol := sub_tolerance_le_serve
          (s := s.serve T (n * T) call.1 call.2) (a := next.1) (T := T)
          (τ := n * T) (hlate' next List.mem_cons_self)
        have hrest := due_le_served
          (fun c hc => hlate' c (List.mem_cons_of_mem _ hc)) hy
        have := le_max_left next.1 (s.serve T (n * T) call.1 call.2).free
        exact ⟨next.1, rfl, by linarith⟩
  · obtain ⟨b, hb, hby⟩ := served_arrival hy
    exact ⟨b, hb, by linarith⟩

/-- Without a bunch on the schedule that is never late, calls `n + 2`
places apart are more than `n + 1` intervals apart on any other. -/
theorem lt_of_not_bunched {cs : List (K × K)} (hT : 0 < T)
    (hlate : ∀ c ∈ cs, 0 ≤ c.2)
    (hsorted : (cs.map Prod.fst).Pairwise (· ≤ ·)) (hbefore : s₀.Before s)
    (hprompt : s.Prompt (cs.map Prod.fst))
    (hnot : ¬ Bunched n T s₀ (cs.map Prod.fst)) {i : Nat} {x y : K}
    (hx : (s.served T (n * T) cs)[i]? = some x)
    (hy : (s.served T (n * T) cs)[i + (n + 2)]? = some y) :
    x + (n + 1) * T < y := by
  induction cs generalizing s₀ s i with
  | nil => cases hx
  | cons call cs ih =>
      have ho : 0 ≤ call.2 := hlate call List.mem_cons_self
      obtain ⟨hhead, htail⟩ := not_or.1 hnot
      cases i with
      | zero =>
          rw [Nat.zero_add] at hy
          cases hx
          by_contra hle
          obtain ⟨hfree, hdue, hnext, hlast⟩ :=
            head_of_served hT hlate hprompt hy (not_lt.1 hle)
          refine hhead ⟨?_, hnext, hlast⟩
          have := hbefore.due
          have := le_max_left call.1 s₀.free
          linarith
      | succ i =>
          rw [Nat.add_right_comm] at hy
          exact ih (fun c hc => hlate c (List.mem_cons_of_mem _ hc))
            (List.pairwise_cons.1 hsorted).2 (hbefore.serve ho)
            (hprompt.serve hT ho hsorted) htail hx hy

/-- Unless calls come bunched, no `n + 1` intervals hold more than `n + 2` of
them. -/
theorem capped_of_not_bunched {cs : List (K × K)} (hT : 0 < T)
    (hlate : ∀ c ∈ cs, 0 ≤ c.2)
    (hsorted : (cs.map Prod.fst).Pairwise (· ≤ ·))
    (hprompt : s.Prompt (cs.map Prod.fst))
    (hnot : ¬ Bunched n T s (cs.map Prod.fst)) :
    Capped (n + 2) ((n + 1) * T) (s.served T (n * T) cs) := by
  rw [capped_iff (served_pairwise s cs)]
  intro i x y hx hy
  exact lt_of_not_bunched hT hlate hsorted ⟨le_refl _, le_refl _⟩ hprompt
    hnot hx hy

/-- After a call with an interval to spare, one within the tolerance is
served within it too, and leaves the whole of it. -/
theorem serve_second {a b : K} (hn : 1 ≤ n) (hT : 0 < T)
    (hdue : s.due + 2 * T ≤ max a s.free) (hb : b ≤ a + n * T) :
    ((s.serve T (n * T) a 0).serve T (n * T) b 0).due
        ≤ (s.serve T (n * T) a 0).free
      ∧ ((s.serve T (n * T) a 0).serve T (n * T) b 0).free
        ≤ (s.serve T (n * T) a 0).free + n * T := by
  have hnT : T ≤ n * T :=
    le_mul_of_one_le_left hT.le (Nat.one_le_cast.2 hn)
  have hnow : max a s.free ≤ (s.serve T (n * T) a 0).free := le_max_left _ _
  have hspare : (s.serve T (n * T) a 0).due + T
      ≤ (s.serve T (n * T) a 0).free := by
    show max (max a s.free - n * T) (s.due + T) + 0 + T ≤ _
    rw [add_zero, max_add]
    exact max_le (by linarith) (by linarith)
  have harrival : a ≤ (s.serve T (n * T) a 0).free := arrival_le_serve
  have hsecond : max b (s.serve T (n * T) a 0).free
      ≤ (s.serve T (n * T) a 0).free + n * T :=
    max_le (by linarith) (by linarith)
  have hdue₂ : ((s.serve T (n * T) a 0).serve T (n * T) b 0).due
      ≤ (s.serve T (n * T) a 0).free := by
    show max (max b _ - n * T) _ + 0 ≤ _
    rw [add_zero]
    exact max_le (sub_le_iff_le_add.2 hsecond) hspare
  exact ⟨hdue₂, max_le hsecond (hdue₂.trans (by linarith))⟩

/-- A bunch is served within `n + 1` intervals, if no call is late. -/
theorem exists_of_bunched {as : List K} (hn : 1 ≤ n) (hT : 0 < T)
    (hsorted : as.Pairwise (· ≤ ·)) (h : Bunched n T s as) :
    ∃ i x y, (s.served T (n * T) (as.map fun a => (a, 0)))[i]? = some x
      ∧ (s.served T (n * T) (as.map fun a => (a, 0)))[i + (n + 2)]? = some y
      ∧ y ≤ x + (n + 1) * T := by
  induction as generalizing s with
  | nil => cases h
  | cons a as ih =>
      obtain ⟨ha, hl⟩ := List.pairwise_cons.1 hsorted
      rcases h with ⟨hdue, ⟨b, hb, hbn⟩, e, he, hen⟩ | h
      · cases as with
        | nil => cases hb
        | cons next as =>
            cases hb
            obtain ⟨hdue₂, hfree₂⟩ := serve_second hn hT hdue hbn
            have harrival : a ≤ (s.serve T (n * T) a 0).free :=
              arrival_le_serve
            obtain ⟨y, hy, hyB⟩ := served_le (τ := n * T)
              (B := (s.serve T (n * T) a 0).free + (n + 1) * T) hT.le
              (le_refl _) (by linarith) (hfree₂.trans (by linarith))
              (List.pairwise_cons.1 hl).2
              he (by linarith)
            exact ⟨0, _, y, rfl, by rw [Nat.zero_add]; exact hy, hyB⟩
      · obtain ⟨i, x, y, hx, hy, hle⟩ := ih hl h
        exact ⟨i + 1, x, y, hx, by rw [Nat.add_right_comm]; exact hy, hle⟩

end

end Proofstand.Pacing
