/-
Lists in order of a key, such as records in order of time, and their
parts up to and from a moment.

Of an ordered list the entries up to `t` are a beginning and those from
`t` on an end, so cutting by number and cutting by key commute
(`drop_upto`), and two lists that agree up to `t` begin alike wherever
they are cut before it.

`upto` and `before` are selections and not cuts, so they are defined on
any list and commute with each other (`before_upto`). Order enters where a
selection has to be a beginning or an end of the list: by induction, where
an entry lies after `t` all that follow it do, and the selection of the
rest is empty. From that a loop that reads a list by position and a
statement about moments can be put together: what was read by position
from a list cut at `t` was read from the list itself (`drop_upto`,
`filter_from`), and where two lists have the same entries up to `t`, the
same number of them lie before any earlier moment
(`before_length_of_agree`).
-/
import Mathlib.Tactic

namespace Proofstand.Timeline

variable {α β : Type} [LinearOrder β] {key : α → β} {l l' : List α}

/-- In order of the key. -/
def Ordered (key : α → β) (l : List α) : Prop :=
  l.Pairwise fun a b => key a ≤ key b

/-- The entries up to `t`. -/
def upto (key : α → β) (t : β) (l : List α) : List α :=
  l.filter fun a => key a ≤ t

/-- The entries before `t`. -/
def before (key : α → β) (t : β) (l : List α) : List α :=
  l.filter fun a => key a < t

theorem mem_upto {a : α} {t : β} :
    a ∈ upto key t l ↔ a ∈ l ∧ key a ≤ t := by
  simp [upto]

theorem upto_eq_nil {t : β} (h : ∀ a ∈ l, t < key a) : upto key t l = [] := by
  rw [upto, List.filter_eq_nil_iff]
  intro a ha
  simp [h a ha]

theorem Ordered.drop (h : Ordered key l) (n : Nat) :
    Ordered key (l.drop n) :=
  List.Pairwise.sublist (List.drop_sublist n l) h

/-- An ordered list is its entries up to a moment and those after it. -/
theorem upto_append (h : Ordered key l) (t : β) :
    upto key t l ++ l.filter (fun a => t < key a) = l := by
  induction l with
  | nil => rfl
  | cons a l ih =>
      obtain ⟨ha, hl⟩ := List.pairwise_cons.1 h
      by_cases hat : key a ≤ t
      · have hlt : ¬ t < key a := not_lt.2 hat
        simp only [upto, List.filter_cons, hat, hlt, decide_true,
          decide_false, if_true, List.cons_append]
        exact congrArg (a :: ·) (ih hl)
      · have hlater : ∀ b ∈ l, t < key b := by
          intro b hb
          exact lt_of_lt_of_le (not_le.1 hat) (ha b hb)
        have hnone : l.filter (fun b => key b ≤ t) = [] :=
          upto_eq_nil hlater
        have hall : l.filter (fun b => t < key b) = l := by
          rw [List.filter_eq_self]
          intro b hb
          simp [hlater b hb]
        simp [upto, hat, not_le.1 hat, hnone, hall]

/-- The entries up to a moment of an end are an end of those entries. -/
theorem drop_upto (h : Ordered key l) (t : β) (n : Nat) :
    upto key t (l.drop n) = (upto key t l).drop n := by
  induction l generalizing n with
  | nil => simp [upto]
  | cons a l ih =>
      obtain ⟨ha, hl⟩ := List.pairwise_cons.1 h
      cases n with
      | zero => rfl
      | succ n =>
          rw [List.drop_succ_cons, ih hl n]
          by_cases hat : key a ≤ t
          · simp [upto, hat]
          · have hlater : ∀ b ∈ a :: l, t < key b := by
              intro b hb
              rcases List.mem_cons.1 hb with rfl | hb
              · exact not_le.1 hat
              · exact lt_of_lt_of_le (not_le.1 hat) (ha b hb)
            have hrest : upto key t l = [] :=
              upto_eq_nil fun b hb => hlater b (List.mem_cons_of_mem a hb)
            rw [upto_eq_nil hlater, hrest, List.drop_nil, List.drop_nil]

/-- The entries from a moment on are what is left after those before it. -/
theorem filter_from (h : Ordered key l) (t : β) :
    l.filter (fun a => t ≤ key a) = l.drop (before key t l).length := by
  induction l with
  | nil => rfl
  | cons a l ih =>
      obtain ⟨ha, hl⟩ := List.pairwise_cons.1 h
      by_cases hat : t ≤ key a
      · have hall : ∀ b ∈ a :: l, t ≤ key b := by
          intro b hb
          rcases List.mem_cons.1 hb with rfl | hb
          · exact hat
          · exact hat.trans (ha b hb)
        have hnone : before key t (a :: l) = [] := by
          rw [before, List.filter_eq_nil_iff]
          intro b hb
          simp [hall b hb]
        rw [hnone, List.length_nil, List.drop_zero, List.filter_eq_self]
        intro b hb
        simp [hall b hb]
      · have hlt : key a < t := not_le.1 hat
        simp only [before, List.filter_cons, hat, hlt, decide_true,
          decide_false, if_true, List.length_cons, List.drop_succ_cons]
        exact ih hl

/-- What lies before an earlier moment is among what lies up to a later
one. -/
theorem before_upto {c t : β} (h : c ≤ t) :
    before key c (upto key t l) = before key c l := by
  rw [before, upto, List.filter_filter]
  apply List.filter_congr
  intro a _
  by_cases hac : key a < c
  · simp [hac, (hac.le.trans h)]
  · simp [hac]

/-- Lists that agree up to a moment have as much before any earlier one. -/
theorem before_length_of_agree {c t : β} (h : c ≤ t)
    (hagree : upto key t l = upto key t l') :
    (before key c l).length = (before key c l').length := by
  rw [← before_upto h, hagree, before_upto h]

end Proofstand.Timeline
