/-
What the hire-time validation lets through.

Field by field, `checkInput` accepts what `Accepts` spells out
(`checkInput_eq_none_iff`), so a map without errors is one whose supplied
values are accepted, with no required input missing and no key that is
not declared (`validateInputs_eq_nil_iff`). That is what a manifest asks
for, but for two kinds of values: a number is only kept from being beyond
a bound, and a NaN is beyond none; of an address only its first two
characters and its length are looked at (`validateInputs_sound_iff`).

# What a float comparison lets through

The checks are written as refusals: a value is refused when it is below
the minimum, or above the maximum. A NaN is neither, so the negation of a
refusal is not a bound; `le_iff_not_lt` says that it is one for every other
float. `Plain` names the two kinds of values for which the negation says
less than the manifest: a bounded NaN (or a bound that is one), and an
address with other characters than digits behind its first two.

The statements are about whatever text-to-float conversion the model has.
They ask when a value that parses to a number is in bounds, and not which
texts parse.
-/
import Proofstand.Agents.Manifest
import Proofstand.Agents.PcsRebalancer.Agent
import Proofstand.Lib.Hex
import Proofstand.Lib.Keyed

namespace Proofstand

open Hex

variable {K : Type} [LinearOrder K]

-- ===================================================== comparing floats

namespace PyFloat

theorem le_nan (x : PyFloat K) : x.le nan = false := by
  cases x <;> rfl

theorem nan_le (x : PyFloat K) : le nan x = false := by
  cases x <;> rfl

/-- A comparison that holds is between numbers. -/
theorem ne_nan_of_le {x y : PyFloat K} (h : x.le y = true) :
    x ≠ nan ∧ y ≠ nan := by
  constructor
  · intro heq
    subst heq
    rw [nan_le] at h
    cases h
  · intro heq
    subst heq
    rw [le_nan] at h
    cases h

/-- But for NaN, the order is total. -/
theorem le_iff_not_lt {x y : PyFloat K} (hx : x ≠ nan) (hy : y ≠ nan) :
    x.le y = true ↔ y.lt x = false := by
  cases x with
  | nan => exact absurd rfl hx
  | inf neg =>
      cases y with
      | nan => exact absurd rfl hy
      | inf neg' => cases neg <;> cases neg' <;> simp [le, lt, eq]
      | fin y => cases neg <;> simp [le, lt, eq]
  | fin x =>
      cases y with
      | nan => exact absurd rfl hy
      | inf neg' => cases neg' <;> simp [le, lt, eq]
      | fin y =>
          simp only [le, lt, eq, Bool.or_eq_true, decide_eq_true_eq,
            decide_eq_false_iff_not, not_lt]
          exact le_iff_lt_or_eq.symm

end PyFloat

namespace Manifest

variable [Field K]

-- ================================================ statement vocabulary

/-- What `checkInput` lets through. -/
def Accepts (spec : InputSpec K) (v : PyVal K) : Prop :=
  match spec.type with
  | .number => ∃ x, v.pyFloat = .ok x
      ∧ (∀ m, spec.min = some m → x.lt m = false)
      ∧ ∀ m, spec.max = some m → m.lt x = false
  | .enum => ∃ w ∈ spec.values, v.pyEq w = true
  | .address => ∃ s, v = .str s ∧ "0x".toList <+: s.toList ∧ s.length = 42
  | .bool => ∃ b, v = .bool b
  | .string => True

/-- `0x` and forty hex digits. -/
def IsAddress (s : String) : Prop :=
  ∃ digits, s.toList = '0' :: 'x' :: digits ∧ digits.length = 40
    ∧ ∀ c ∈ digits, (hexVal c).isSome

/-- What a manifest asks of the value of an input. -/
def Meets (spec : InputSpec K) (v : PyVal K) : Prop :=
  match spec.type with
  | .number => ∃ x, v.pyFloat = .ok x
      ∧ (∀ m, spec.min = some m → m.le x = true)
      ∧ ∀ m, spec.max = some m → x.le m = true
  | .enum => ∃ w ∈ spec.values, v.pyEq w = true
  | .address => ∃ s, v = .str s ∧ IsAddress s
  | .bool => ∃ b, v = .bool b
  | .string => True

/-- A bounded number is no NaN, nor is its bound, and an address has no
other characters than hex digits after the first two. -/
def Plain (spec : InputSpec K) (v : PyVal K) : Prop :=
  match spec.type with
  | .number => ∀ x m, v.pyFloat = .ok x →
      spec.min = some m ∨ spec.max = some m → x ≠ .nan ∧ m ≠ .nan
  | .address => ∀ s, v = .str s →
      ∀ c ∈ s.toList.drop 2, (hexVal c).isSome
  | _ => True

/-- The inputs are what the manifest asks for: every value that is
supplied, every one that is required, and no other. -/
structure Sound (m : Manifest K) (raw : Dict K) : Prop where
  meets : ∀ p ∈ m.inputs, ∀ v, supplied raw p.1 = some v → Meets p.2 v
  required : ∀ p ∈ m.inputs, p.2.required = true → p.2.default = .none →
    ∃ v, supplied raw p.1 = some v
  declared : ∀ p ∈ raw, ∃ spec, (p.1, spec) ∈ m.inputs

-- ============================================================ one field

/-- Nothing is beyond a bound that is not declared. -/
theorem filter_eq_none_iff {α : Type} (bound : Option α)
    (beyond : α → Bool) :
    bound.filter beyond = none ↔ ∀ m, bound = some m → beyond m = false := by
  rw [Option.filter_eq_none_iff]
  constructor
  · intro h m heq
    subst heq
    simpa using h m rfl
  · intro h m hm
    simpa using h m hm

/-- No error is what an accepted value is given, and no other. -/
theorem checkInput_eq_none_iff {spec : InputSpec K} {v : PyVal K} :
    checkInput spec v = none ↔ Accepts spec v := by
  unfold checkInput Accepts
  cases spec.type with
  | number =>
      dsimp only
      cases v.pyFloat with
      | error e => exact ⟨nofun, nofun⟩
      | ok x =>
          constructor
          · intro h
            refine ⟨x, rfl, ?_⟩
            rw [← filter_eq_none_iff spec.min fun m => x.lt m,
              ← filter_eq_none_iff spec.max fun m => m.lt x]
            dsimp only at h
            split at h
            · cases h
            · cases h
            · next hmin hmax => exact ⟨hmin, hmax⟩
          · intro h
            obtain ⟨x', hx, hmin, hmax⟩ := h
            cases hx
            rw [← filter_eq_none_iff spec.min fun m => x.lt m] at hmin
            rw [← filter_eq_none_iff spec.max fun m => m.lt x] at hmax
            dsimp only
            rw [hmin, hmax]
  | enum =>
      dsimp only
      rw [ite_eq_left_iff, List.any_eq_true, imp_iff_not_or, not_not]
      simp
  | address =>
      dsimp only
      cases v with
      | str s =>
          rw [PyVal.asText?]
          simp [List.isPrefixOf_iff_prefix]
      | none => exact ⟨nofun, nofun⟩
      | bool b => exact ⟨nofun, nofun⟩
      | int n => exact ⟨nofun, nofun⟩
      | float x => exact ⟨nofun, nofun⟩
      | list vs => exact ⟨nofun, nofun⟩
      | dict kvs => exact ⟨nofun, nofun⟩
  | bool =>
      cases v with
      | bool b => exact ⟨fun _ => ⟨b, rfl⟩, fun _ => rfl⟩
      | none => exact ⟨nofun, nofun⟩
      | str s => exact ⟨nofun, nofun⟩
      | int n => exact ⟨nofun, nofun⟩
      | float x => exact ⟨nofun, nofun⟩
      | list vs => exact ⟨nofun, nofun⟩
      | dict kvs => exact ⟨nofun, nofun⟩
  | string => exact ⟨fun _ => trivial, fun _ => rfl⟩

/-- An accepted value is what the manifest asks for unless it is one of
the two kinds. -/
theorem meets_iff_of_accepts {spec : InputSpec K} {v : PyVal K}
    (h : Accepts spec v) : Meets spec v ↔ Plain spec v := by
  unfold Accepts at h
  unfold Meets Plain
  cases htype : spec.type with
  | number =>
      rw [htype] at h
      obtain ⟨x, hx, hmin, hmax⟩ := h
      dsimp only
      constructor
      · intro h
        obtain ⟨x', hx', hmin', hmax'⟩ := h
        intro y m hy hm
        rw [hx] at hx' hy
        cases hx'
        cases hy
        rcases hm with hm | hm
        · exact (PyFloat.ne_nan_of_le (hmin' m hm)).symm
        · exact PyFloat.ne_nan_of_le (hmax' m hm)
      · intro hplain
        refine ⟨x, hx, ?_, ?_⟩
        · intro m hm
          obtain ⟨hxn, hmn⟩ := hplain x m hx (Or.inl hm)
          exact (PyFloat.le_iff_not_lt hmn hxn).2 (hmin m hm)
        · intro m hm
          obtain ⟨hxn, hmn⟩ := hplain x m hx (Or.inr hm)
          exact (PyFloat.le_iff_not_lt hxn hmn).2 (hmax m hm)
  | enum =>
      rw [htype] at h
      exact ⟨fun _ => trivial, fun _ => h⟩
  | address =>
      rw [htype] at h
      obtain ⟨s, rfl, ⟨digits, hdigits⟩, hlength⟩ := h
      dsimp only
      have hchars : s.toList = '0' :: 'x' :: digits := hdigits.symm
      have hforty : digits.length = 40 := by
        rw [← String.length_toList, hchars] at hlength
        simpa using hlength
      constructor
      · intro h
        obtain ⟨s', hs, digits', hchars', -, hhex⟩ := h
        intro s'' hs''
        cases hs
        cases hs''
        rw [hchars']
        exact hhex
      · intro hplain
        refine ⟨s, rfl, digits, hchars, hforty, ?_⟩
        have hhex := hplain s rfl
        rw [hchars] at hhex
        exact hhex
  | bool =>
      rw [htype] at h
      exact ⟨fun _ => trivial, fun _ => h⟩
  | string => exact ⟨fun _ => trivial, fun _ => trivial⟩

-- ======================================================= the whole map

omit [LinearOrder K] [Field K] in
/-- `v is None`, -/
theorem isNone_eq_true {v : PyVal K} : v.isNone = true ↔ v = .none := by
  cases v <;> simp [PyVal.isNone]

omit [LinearOrder K] [Field K] in
/-- and `v is not None`. -/
theorem isNone_eq_false {v : PyVal K} : v.isNone = false ↔ v ≠ .none := by
  rw [Bool.eq_false_iff, Ne, isNone_eq_true]

omit [LinearOrder K] [Field K] in
/-- A declared name is one of the inputs. -/
theorem lookup_isSome_iff {inputs : List (String × InputSpec K)}
    {name : String} : (inputs.lookup name).isNone = false
      ↔ ∃ spec, (name, spec) ∈ inputs := by
  simp

/-- What a map without errors is. -/
theorem validateInputs_eq_nil_iff {m : Manifest K} {raw : Dict K} :
    validateInputs m raw = []
      ↔ (∀ p ∈ m.inputs, ∀ v, supplied raw p.1 = some v → Accepts p.2 v)
        ∧ (∀ p ∈ m.inputs, p.2.required = true → p.2.default = .none →
          ∃ v, supplied raw p.1 = some v)
        ∧ ∀ p ∈ raw, ∃ spec, (p.1, spec) ∈ m.inputs := by
  unfold validateInputs
  rw [List.append_eq_nil_iff, List.filterMap_eq_nil_iff, List.map_eq_nil_iff,
    List.filter_eq_nil_iff, ← and_assoc]
  apply and_congr
  · rw [← forall₂_and]
    apply forall₂_congr
    intro input
    obtain ⟨name, spec⟩ := input
    intro hin
    dsimp only
    cases hv : supplied raw name with
    | none =>
        dsimp only
        rw [ite_eq_right_iff]
        simp [isNone_eq_true]
    | some v =>
        dsimp only
        rw [Option.map_eq_none_iff, checkInput_eq_none_iff]
        simp
  · apply forall₂_congr
    intro p _
    rw [Bool.not_eq_true]
    exact lookup_isSome_iff

/-- What is let through is what the manifest asks for, unless a value is
of the two kinds. -/
theorem validateInputs_sound_iff {m : Manifest K} {raw : Dict K}
    (h : validateInputs m raw = []) :
    Sound m raw
      ↔ ∀ p ∈ m.inputs, ∀ v, supplied raw p.1 = some v → Plain p.2 v := by
  obtain ⟨haccepts, hrequired, hdeclared⟩ := validateInputs_eq_nil_iff.1 h
  constructor
  · intro hsound p hp v hv
    exact (meets_iff_of_accepts (haccepts p hp v hv)).1
      (hsound.meets p hp v hv)
  · intro hplain
    exact
      { meets := fun p hp v hv =>
          (meets_iff_of_accepts (haccepts p hp v hv)).2 (hplain p hp v hv)
        required := hrequired
        declared := hdeclared }

-- ============================================================ three hires

/-- An address of forty `c`. -/
def addressOf (c : Char) : String :=
  "0x" ++ String.ofList (List.replicate 40 c)

/-- A hire of the rebalancer, the address one character over and over. -/
def hireOf (c : Char) (capital : String) : Dict ℚ :=
  [("pool", .str (addressOf c)), ("capital_usd", .str capital)]

theorem validateInputs_sound_plain :
    Sound PcsRebalancer.manifest (hireOf 'a' "500") := by
  have hempty : (validateInputs PcsRebalancer.manifest
      (hireOf 'a' "500")).isEmpty = true := by decide +kernel
  refine (validateInputs_sound_iff (List.isEmpty_iff.1 hempty)).2 ?_
  intro p hp v hv
  simp only [PcsRebalancer.manifest, List.mem_cons, List.not_mem_nil,
    or_false] at hp
  rcases hp with rfl | rfl | rfl
  · have hpool : v = .str (addressOf 'a') := by
      have hsupplied : supplied (hireOf 'a' "500") "pool"
          = some (.str (addressOf 'a')) := rfl
      rw [hsupplied] at hv
      exact (Option.some.inj hv).symm
    rw [hpool]
    intro s h
    cases h
    intro c hc
    have hchars : (addressOf 'a').toList.drop 2 = List.replicate 40 'a' := by
      decide +kernel
    rw [hchars] at hc
    rw [List.eq_of_mem_replicate hc]
    decide
  · have hcapital : v = .str "500" := by
      have hsupplied : supplied (hireOf 'a' "500") "capital_usd"
          = some (.str "500") := rfl
      rw [hsupplied] at hv
      exact (Option.some.inj hv).symm
    rw [hcapital]
    have hread : (PyVal.str "500" : PyVal ℚ).pyFloat = .ok (.fin 500) := by
      decide +kernel
    intro x m hx hm
    rw [hread] at hx
    cases hx
    refine ⟨nofun, ?_⟩
    intro heq
    subst heq
    rcases hm with hm | hm
    · cases hm
    · cases hm
  · exact trivial

/-- A capital of NaN passes, and so does an address that is none. -/
theorem nan_capital_accepted :
    (validateInputs PcsRebalancer.manifest (hireOf 'a' "nan") = []
        ∧ ¬ Sound PcsRebalancer.manifest (hireOf 'a' "nan"))
      ∧ validateInputs PcsRebalancer.manifest (hireOf 'z' "500") = []
        ∧ ¬ Sound PcsRebalancer.manifest (hireOf 'z' "500") := by
  have hnan : (validateInputs PcsRebalancer.manifest
      (hireOf 'a' "nan")).isEmpty = true := by decide +kernel
  have hzs : (validateInputs PcsRebalancer.manifest
      (hireOf 'z' "500")).isEmpty = true := by decide +kernel
  refine ⟨⟨List.isEmpty_iff.1 hnan, ?_⟩, List.isEmpty_iff.1 hzs, ?_⟩
  · intro hsound
    have hmeets := hsound.meets _
      (List.mem_cons_of_mem _ List.mem_cons_self) (.str "nan") rfl
    obtain ⟨x, hx, hmin, -⟩ := hmeets
    have hread : (PyVal.str "nan" : PyVal ℚ).pyFloat = .ok .nan := by
      decide +kernel
    rw [hread] at hx
    cases hx
    have hle := hmin (.fin 50) rfl
    rw [PyFloat.le_nan] at hle
    cases hle
  · intro hsound
    have hmeets := hsound.meets _ List.mem_cons_self
      (.str (addressOf 'z')) rfl
    obtain ⟨s, hs, digits, hchars, -, hhex⟩ := hmeets
    cases hs
    have hz : 'z' ∈ digits := by
      have hdrop : digits = (addressOf 'z').toList.drop 2 := by
        rw [hchars]
        rfl
      rw [hdrop]
      decide +kernel
    exact absurd (hhex 'z' hz) (by decide)

end Manifest

end Proofstand
