/-
The creation block that `check_contract_age` reports.

The bisection is a search over an oracle that may miss code where a read
fails and never sees code where there is none (`bisect_eq_search`), so
whatever fails it ends at or after the creation block, and with nothing
failing at it. The window is at most 5,000,000 blocks wide, which forty
rounds halve to nothing (`window_lt`).

# Which half of the search is needed

Failing reads answer `false` where the code may be there, so the oracle is
sound and not complete. Soundness alone bounds the answer from below
(`search_ge`): a contract is never said to be older than it is. On an
archive node nothing fails in the window, the oracle is exact there, and
the block is the one the contract was created at.

# The age axis

A check of age is scored in steps of days, so a later creation block means
no higher a score (`ageCheck_score_anti`): failing reads can cost a token
some of its score and never earn it any. The head block and the probe are
read once; if either fails there is no creation block and the check is
`unknown`.
-/
import Proofstand.Agents.BscSentry.Checks
import Proofstand.Lib.Bisect
import Proofstand.Lib.Fallible

namespace Proofstand.BscSentry

open Fallible

variable {f : Fork} {address : String} {c : Int}

-- ==================================================== what the reads say

/-- A contract at the address has code from block `c` on: no read that
answers says anything else. -/
def CodeFrom (f : Fork) (address : String) (c : Int) : Prop :=
  ∀ b code, f.getCode address (some b) = .ok code → (code ≠ [] ↔ c ≤ b)

/-- `probe_block`, the start of the window. -/
def probeOf (head : Int) : Int := max 1 (head - 5000000)

/-- Every historical read of the window answers. -/
def Archive (f : Fork) (address : String) (head : Int) : Prop :=
  ∀ b, probeOf head ≤ b → b ≤ head →
    ∃ code, f.getCode address (some b) = .ok code

/-- The read of the code at a block found some. -/
def hasCode (f : Fork) (address : String) (b : Int) : Bool :=
  match f.getCode address (some b) with
  | .ok (_ :: _) => true
  | _ => false

/-- It did exactly when it returned and the code was not empty. -/
theorem hasCode_iff {b : Int} :
    hasCode f address b = true
      ↔ ∃ code, f.getCode address (some b) = .ok code ∧ code ≠ [] := by
  unfold hasCode
  split
  case h_1 x xs heq =>
      exact ⟨fun _ => ⟨x :: xs, heq, by simp⟩, fun _ => rfl⟩
  case h_2 hother =>
      refine ⟨nofun, ?_⟩
      intro h
      obtain ⟨code, hread, hcode⟩ := h
      obtain ⟨x, xs, rfl⟩ := List.exists_cons_of_ne_nil hcode
      exact absurd hread (hother x xs)

theorem bisect_eq_search : ∀ (n : Nat) (lo hi : Int),
    bisect f address n lo hi
      = Bisect.search (hasCode f address) n lo hi
  | 0, _, _ => rfl
  | n + 1, lo, hi => by
      unfold bisect Bisect.search
      split
      case isTrue => rfl
      case isFalse =>
          dsimp only
          split
          case h_1 x xs heq =>
              have hyes : hasCode f address ((lo + hi) / 2) = true :=
                hasCode_iff.2 ⟨x :: xs, heq, by simp⟩
              rw [if_pos hyes]
              exact bisect_eq_search n lo ((lo + hi) / 2)
          case h_2 hother =>
              have hno : ¬ hasCode f address ((lo + hi) / 2) = true := by
                intro hyes
                obtain ⟨code, hread, hcode⟩ := hasCode_iff.1 hyes
                obtain ⟨x, xs, rfl⟩ := List.exists_cons_of_ne_nil hcode
                exact hother x xs hread
              rw [if_neg hno]
              exact bisect_eq_search n ((lo + hi) / 2 + 1) hi

theorem hasCode_sound (h : CodeFrom f address c) {b : Int}
    (hb : hasCode f address b = true) : c ≤ b := by
  obtain ⟨code, hread, hcode⟩ := hasCode_iff.1 hb
  exact (h b code hread).1 hcode

/-- From the creation on an archive node finds code, down to the probe. -/
theorem hasCode_complete (h : CodeFrom f address c) {head : Int}
    (harchive : Archive f address head) {b : Int} (hlo : probeOf head ≤ b)
    (hhi : b ≤ head) (hb : c ≤ b) : hasCode f address b = true := by
  obtain ⟨code, hread⟩ := harchive b hlo hhi
  exact hasCode_iff.2 ⟨code, hread, (h b code hread).2 hb⟩

/-- The probed span is shorter than the forty halvings can take. -/
theorem window_lt (head : Int) : head - probeOf head < 2 ^ 40 := by
  unfold probeOf
  omega

-- ============================================================== the age

variable {K : Type} [Field K] [LinearOrder K] [FloorRing K]

/-- With the head read and the probe answered, the age is that of the
bisection. -/
theorem checkContractAge_of_probe {target : String} {head : Int}
    {code : Hex.Bytes} (haddress : f.toChecksumAddress target = .ok address)
    (hhead : f.blockNumber = .ok head)
    (hread : f.getCode address (some head) = .ok code) (hcode : code ≠ [])
    (hprobe : f.getCode address (some (probeOf head)) = .ok []) :
    checkContractAge f target
      = .ok (ageCheck (K := K) head
          (bisect f address 40 (probeOf head) head)) := by
  have hnot : code.isEmpty = false := by
    rw [List.isEmpty_eq_false_iff]
    exact hcode
  unfold probeOf at hprobe
  unfold checkContractAge probeOf
  rw [haddress, ok_bind, hhead, Live.read, ok_bind, hread, Live.read, ok_bind,
    hnot]
  simp only [Bool.false_eq_true, if_false, hprobe]
  rfl

variable [IsStrictOrderedRing K]

/-- A contract no older is scored no higher. -/
theorem ageCheck_score_anti {head c created : Int} (h : c ≤ created) :
    (ageCheck (K := K) head created).score ≤ (ageCheck head c).score := by
  have hdays : ((head - created : Int) : K) * 3 / 86400
      ≤ ((head - c : Int) : K) * 3 / 86400 := by
    have hblocks : ((head - created : Int) : K) ≤ ((head - c : Int) : K) := by
      exact_mod_cast sub_le_sub_left h head
    linarith
  unfold ageCheck
  dsimp only
  generalize ((head - created : Int) : K) * 3 / 86400 = young at hdays ⊢
  generalize ((head - c : Int) : K) * 3 / 86400 = old at hdays ⊢
  split_ifs <;> linarith

/-- The check says that the contract was created at the block. -/
def Reports (check : Check K) (created : Int) : Prop :=
  check.evidence.lookup "creation_block" = some (.int created)

omit [IsStrictOrderedRing K] in
/-- The age axis reports its own creation block and no other. -/
theorem ageCheck_reports {head created created' : Int} :
    Reports (ageCheck (K := K) head created) created' ↔ created' = created := by
  have hlookup : (ageCheck (K := K) head created).evidence.lookup
      "creation_block" = some (.int created) := by
    unfold ageCheck
    dsimp only
    split_ifs <;> rfl
  unfold Reports
  rw [hlookup]
  constructor
  · intro h
    cases h
    rfl
  · intro heq
    subst heq
    rfl

omit [IsStrictOrderedRing K] in
/-- A creation block is reported by a bisection only, of a probe that
found no code. -/
theorem checkContractAge_reports {target : String} {head created : Int}
    {check : Check K} (haddress : f.toChecksumAddress target = .ok address)
    (hhead : f.blockNumber = .ok head)
    (h : checkContractAge f target = .ok check) (hreports : Reports check created) :
    created = bisect f address 40 (probeOf head) head
      ∧ check = ageCheck head created := by
  obtain ⟨address', haddress', h⟩ := bind_eq_ok.1 h
  obtain ⟨head', hhead', h⟩ := bind_eq_ok.1 h
  obtain ⟨code, -, h⟩ := bind_eq_ok.1 h
  rw [haddress] at haddress'
  rw [hhead] at hhead'
  cases haddress'
  cases hhead'
  split at h
  · cases h
    simp [Reports, List.lookup] at hreports
  · dsimp only at h
    split at h
    · cases h
      simp [Reports, List.lookup] at hreports
    · cases h
      simp [Reports, List.lookup] at hreports
    · cases h
      obtain rfl := ageCheck_reports.1 hreports
      exact ⟨rfl, rfl⟩

/-- Whatever reads fail, the contract is not said to be older than it is:
the block reported is at or after the one it was created at. When the
head and the probe answer there is one, and when the whole window does
it is that one. -/
theorem creation_block_bisection {target : String} {head : Int}
    (haddress : f.toChecksumAddress target = .ok address)
    (hhead : f.blockNumber = .ok head) (hfrom : CodeFrom f address c)
    (hpresent : c ≤ head) (habsent : probeOf head < c) :
    (∀ (check : Check K) (created : Int),
        checkContractAge f target = .ok check → Reports check created →
          c ≤ created ∧ created ≤ head
            ∧ check.score ≤ (ageCheck (K := K) head c).score)
      ∧ (∀ code code', f.getCode address (some head) = .ok code →
          f.getCode address (some (probeOf head)) = .ok code' →
            ∃ (check : Check K) (created : Int),
              checkContractAge f target = .ok check ∧ Reports check created)
      ∧ (Archive f address head → ∃ check : Check K,
          checkContractAge f target = .ok check ∧ Reports check c) := by
  have hbisect : ∀ code code', f.getCode address (some head) = .ok code →
      f.getCode address (some (probeOf head)) = .ok code' →
        checkContractAge (K := K) f target
          = .ok (ageCheck head (bisect f address 40 (probeOf head) head)) := by
    intro code code' hread hprobe
    have hcode : code ≠ [] := (hfrom head code hread).2 hpresent
    have hempty : code' = [] := by
      by_contra hnot
      exact absurd ((hfrom _ code' hprobe).1 hnot) (not_le.2 habsent)
    rw [hempty] at hprobe
    exact checkContractAge_of_probe haddress hhead hread hcode hprobe
  have hwindow : probeOf head ≤ head := (habsent.trans_le hpresent).le
  refine ⟨?_, ?_, ?_⟩
  · intro check created h hreports
    obtain ⟨hcreated, rfl⟩ :=
      checkContractAge_reports haddress hhead h hreports
    rw [bisect_eq_search] at hcreated
    have hge : c ≤ created := by
      rw [hcreated]
      exact Bisect.search_ge (fun b => hasCode_sound hfrom) hpresent
        (window_lt head)
    have hle : created ≤ head := by
      rw [hcreated]
      exact (Bisect.search_mem hwindow).2
    exact ⟨hge, hle, ageCheck_score_anti hge⟩
  · intro code code' hread hprobe
    exact ⟨_, _, hbisect code code' hread hprobe, ageCheck_reports.2 rfl⟩
  · intro harchive
    obtain ⟨code, hread⟩ := harchive head hwindow (le_refl head)
    obtain ⟨code', hprobe⟩ := harchive (probeOf head) (le_refl _) hwindow
    refine ⟨_, hbisect code code' hread hprobe, ageCheck_reports.2 ?_⟩
    rw [bisect_eq_search]
    exact (Bisect.search_eq (fun b => hasCode_sound hfrom)
      (fun b => hasCode_complete hfrom harchive) habsent.le hpresent
      (window_lt head)).symm

/-- A contract of block 60, on a node that lost block 75. -/
def young : Fork where
  toChecksumAddress := .ok
  ownerCall _ _ := .error "execution reverted"
  getCode _ block :=
    if block = some 75 then .error "missing trie node"
    else .ok (if 60 ≤ block.getD 100 then [1] else [])
  getStorageAt _ _ := .ok []
  blockNumber := .ok 100
  getPair _ _ := .error "execution reverted"
  totalSupply _ := .ok 0
  balanceOf _ _ := .ok 0

/-- The contract of the example has code from block 60 on. -/
theorem codeFrom_young : CodeFrom young "0x70" 60 := by
  intro b code h
  unfold young at h
  dsimp only at h
  split at h
  · cases h
  · cases h
    rw [Option.getD_some]
    split
    case isTrue hb => exact ⟨fun _ => hb, fun _ => by simp⟩
    case isFalse hb =>
        exact ⟨fun hnot => absurd rfl hnot, fun h => absurd h hb⟩

/-- Its check reports a block from there to the head. -/
theorem creation_block_young :
    ∃ (check : Check ℚ) (created : Int),
      checkContractAge young "0x70" = .ok check ∧ Reports check created
        ∧ 60 ≤ created ∧ created ≤ 100 := by
  have haddress : young.toChecksumAddress "0x70" = .ok "0x70" := rfl
  have hhead : young.blockNumber = .ok 100 := rfl
  obtain ⟨hsafe, hsome, -⟩ :=
    creation_block_bisection (K := ℚ) haddress hhead codeFrom_young
      (by decide) (by decide)
  obtain ⟨check, created, h, hreports⟩ := hsome [1] [] rfl rfl
  obtain ⟨hge, hle, -⟩ := hsafe check created h hreports
  exact ⟨check, created, h, hreports, hge, hle⟩

end Proofstand.BscSentry
