/-
Whether a hire that was accepted stays accepted.

The API validates the raw inputs and `run_hire` the ones with the
defaults filled in. Filling in is idempotent (`applyDefaults_idem`), and
what it changes is what was not supplied (`supplied_applyDefaults`), so
the second validation fails only over a default. `_coherent` holds an
enum's default against its values, and no other default against
anything: the hire stays accepted exactly when the defaults that were
filled in would have been accepted (`stays_accepted_iff`).

# How it goes

`apply_defaults` is a loop over the declared inputs, and each round is a
`fill`, which either writes a default or leaves the map alone. All facts
about the loop are inductions over the list of inputs with the map left
free: what is supplied stays supplied, and with the value it had. The
second validation then reads, name by name, either the value that the
first one accepted or a default.

The manifest of the last section passes the schema and has one input
whose default is above its own maximum.
-/
import Proofstand.Orchestrator.Api
import Proofstand.Agents.Proofs.Inputs
import Proofstand.Agents.BnbGrid.Agent

namespace Proofstand

open Fallible

variable {K : Type}

-- =========================================================== filling in

/-- `d[k] = v` is the keyed list's `put`, -/
theorem Dict.set_eq_put (d : Dict K) (k : String) (v : PyVal K) :
    d.set k v = Keyed.put k v d := by
  induction d with
  | nil => rfl
  | cons e d ih =>
      obtain ⟨k', v'⟩ := e
      rw [Dict.set, Keyed.put, ih]

/-- and an entry after it is the new one or an old one. -/
theorem Dict.mem_set {d : Dict K} {k : String} {v : PyVal K}
    {e : String × PyVal K} (h : e ∈ d.set k v) : e.1 = k ∨ e ∈ d := by
  induction d with
  | nil =>
      rw [Dict.set, List.mem_singleton] at h
      rw [h]
      exact Or.inl rfl
  | cons e' d ih =>
      obtain ⟨k', v'⟩ := e'
      rw [Dict.set] at h
      split at h
      · rcases List.mem_cons.1 h with rfl | h
        · exact Or.inl rfl
        · exact Or.inr (List.mem_cons_of_mem _ h)
      · rcases List.mem_cons.1 h with rfl | h
        · exact Or.inr List.mem_cons_self
        · exact (ih h).imp id (List.mem_cons_of_mem _)

namespace Manifest

/-- The default of one input, filled in. -/
def fill (out : Dict K) (p : String × InputSpec K) : Dict K :=
  if (supplied out p.1).isNone ∧ !p.2.default.isNone then
    out.set p.1 p.2.default
  else out

/-- `apply_defaults` fills the declared inputs one after the other. -/
theorem applyDefaults_eq_foldl (m : Manifest K) (raw : Dict K) :
    m.applyDefaults raw = m.inputs.foldl fill raw := rfl

/-- A default there is, for a name that is not supplied. -/
def Fills (out : Dict K) (p : String × InputSpec K) : Prop :=
  supplied out p.1 = none ∧ p.2.default ≠ .none

/-- Filling an input that is to be filled writes its default, -/
theorem fill_of_fills {out : Dict K} {p : String × InputSpec K}
    (h : Fills out p) : fill out p = out.set p.1 p.2.default := by
  unfold fill
  rw [h.1]
  rw [isNone_eq_false.2 h.2]
  rfl

/-- and one that is not leaves the map alone. -/
theorem fill_of_not_fills {out : Dict K} {p : String × InputSpec K}
    (h : ¬ Fills out p) : fill out p = out := by
  apply if_neg
  intro h
  obtain ⟨hout, hdefault⟩ := h
  refine h ⟨Option.isNone_iff_eq_none.1 hout, fun hnone => ?_⟩
  rw [hnone] at hdefault
  cases hdefault

/-- What a write supplies: its value under its key, the rest as before. -/
theorem supplied_set {d : Dict K} {k : String} {v : PyVal K}
    (hv : v ≠ .none) (name : String) :
    supplied (d.set k v) name
      = if name = k then some v else supplied d name := by
  unfold supplied
  rw [Dict.set_eq_put, Keyed.lookup_put]
  split
  · simp [isNone_eq_false.2 hv]
  · rfl

/-- What is supplied stays. -/
theorem supplied_fill_of_some {out : Dict K} {p : String × InputSpec K}
    {name : String} {v : PyVal K} (h : supplied out name = some v) :
    supplied (fill out p) name = some v := by
  by_cases hfills : Fills out p
  · rw [fill_of_fills hfills, supplied_set hfills.2]
    have hne : name ≠ p.1 := by
      intro heq
      subst heq
      rw [hfills.1] at h
      cases h
    rw [if_neg hne]
    exact h
  · rw [fill_of_not_fills hfills]
    exact h

/-- A value that is supplied stays, whatever is filled after it. -/
theorem supplied_foldl_of_some {inputs : List (String × InputSpec K)}
    {out : Dict K} {name : String} {v : PyVal K}
    (h : supplied out name = some v) :
    supplied (inputs.foldl fill out) name = some v := by
  induction inputs generalizing out with
  | nil => exact h
  | cons p inputs ih => exact ih (supplied_fill_of_some h)

/-- Nothing is left to fill in. -/
theorem not_fills_foldl {inputs : List (String × InputSpec K)}
    {out : Dict K} : ∀ p ∈ inputs, ¬ Fills (inputs.foldl fill out) p := by
  induction inputs generalizing out with
  | nil => exact nofun
  | cons q inputs ih =>
      intro p hp
      rw [List.foldl_cons]
      rcases List.mem_cons.1 hp with rfl | hp
      · intro h
        obtain ⟨hnone, hdefault⟩ := h
        -- `p` was supplied, or its default is now
        have hsome : ∃ v, supplied (fill out p) p.1 = some v := by
          by_cases hfills : Fills out p
          · refine ⟨p.2.default, ?_⟩
            rw [fill_of_fills hfills, supplied_set hfills.2, if_pos rfl]
          · cases hout : supplied out p.1 with
            | none => exact absurd ⟨hout, hdefault⟩ hfills
            | some v => exact ⟨v, supplied_fill_of_some hout⟩
        obtain ⟨v, hv⟩ := hsome
        rw [supplied_foldl_of_some hv] at hnone
        cases hnone
      · exact ih p hp

theorem foldl_fill_of_not_fills {inputs : List (String × InputSpec K)}
    {out : Dict K} (h : ∀ p ∈ inputs, ¬ Fills out p) :
    inputs.foldl fill out = out := by
  induction inputs with
  | nil => rfl
  | cons p inputs ih =>
      rw [List.foldl_cons, fill_of_not_fills (h p List.mem_cons_self)]
      exact ih fun q hq => h q (List.mem_cons_of_mem _ hq)

theorem applyDefaults_idem (m : Manifest K) (raw : Dict K) :
    m.applyDefaults (m.applyDefaults raw) = m.applyDefaults raw :=
  foldl_fill_of_not_fills not_fills_foldl

-- ================================================= what is supplied then

/-- An input is filled only under its own name, -/
theorem supplied_fill_of_ne {out : Dict K} {p : String × InputSpec K}
    {name : String} (h : p.1 ≠ name) :
    supplied (fill out p) name = supplied out name := by
  by_cases hfills : Fills out p
  · rw [fill_of_fills hfills, supplied_set hfills.2, if_neg h.symm]
  · rw [fill_of_not_fills hfills]

/-- so a name that is not declared keeps what was sent. -/
theorem supplied_foldl_of_not_mem {inputs : List (String × InputSpec K)}
    {out : Dict K} {name : String} (h : name ∉ inputs.map Prod.fst) :
    supplied (inputs.foldl fill out) name = supplied out name := by
  induction inputs generalizing out with
  | nil => rfl
  | cons q inputs ih =>
      rw [List.map_cons, List.mem_cons, not_or] at h
      rw [List.foldl_cons, ih h.2, supplied_fill_of_ne (Ne.symm h.1)]

/-- An input that is not supplied is supplied with its default, if it has
one. -/
theorem supplied_applyDefaults {inputs : List (String × InputSpec K)}
    (hkeys : (inputs.map Prod.fst).Nodup) {out : Dict K}
    {p : String × InputSpec K} (hp : p ∈ inputs)
    (hout : supplied out p.1 = none) :
    supplied (inputs.foldl fill out) p.1
      = if p.2.default.isNone then none else some p.2.default := by
  induction inputs generalizing out with
  | nil => cases hp
  | cons q inputs ih =>
      rw [List.map_cons, List.nodup_cons] at hkeys
      rw [List.foldl_cons]
      rcases List.mem_cons.1 hp with rfl | hp
      · rw [supplied_foldl_of_not_mem hkeys.1]
        by_cases hdefault : p.2.default = .none
        · have hstays : ¬ Fills out p := fun h => h.2 hdefault
          rw [fill_of_not_fills hstays, hout, hdefault]
          rfl
        · rw [fill_of_fills ⟨hout, hdefault⟩, supplied_set hdefault,
            if_pos rfl, if_neg]
          exact fun hnone => hdefault (isNone_eq_true.1 hnone)
      · have hne : q.1 ≠ p.1 := by
          intro heq
          apply hkeys.1
          rw [heq]
          exact List.mem_map_of_mem hp
        apply ih hkeys.2 hp
        rw [supplied_fill_of_ne hne]
        exact hout

/-- No key comes in that is not declared. -/
theorem mem_applyDefaults {inputs : List (String × InputSpec K)}
    {out : Dict K} {e : String × PyVal K} (h : e ∈ inputs.foldl fill out) :
    e ∈ out ∨ ∃ spec, (e.1, spec) ∈ inputs := by
  induction inputs generalizing out with
  | nil => exact Or.inl h
  | cons q inputs ih =>
      rw [List.foldl_cons] at h
      rcases ih h with h | ⟨spec, hspec⟩
      · by_cases hfills : Fills out q
        · rw [fill_of_fills hfills] at h
          rcases Dict.mem_set h with hkey | h
          · rw [hkey]
            exact Or.inr ⟨q.2, List.mem_cons_self⟩
          · exact Or.inl h
        · rw [fill_of_not_fills hfills] at h
          exact Or.inl h
      · exact Or.inr ⟨spec, List.mem_cons_of_mem _ hspec⟩

-- ================================================ the second validation

variable [Field K] [LinearOrder K]

/-- The default of every input that is not supplied, if there is one and
the input is no enum, is a value the input accepts. -/
def DefaultsFit (m : Manifest K) (raw : Dict K) : Prop :=
  ∀ p ∈ m.inputs, supplied raw p.1 = none → p.2.default ≠ .none →
    p.2.type ≠ .enum → Accepts p.2 p.2.default

/-- `_coherent` has an enum's default among its values. -/
theorem accepts_enum_default {spec : InputSpec K}
    (h : spec.coherent = .ok ()) (htype : spec.type = .enum)
    (hdefault : spec.default ≠ .none) : Accepts spec spec.default := by
  have hnone := isNone_eq_false.2 hdefault
  have hin : spec.values.any spec.default.pyEq = true := by
    by_contra hnot
    rw [Bool.not_eq_true] at hnot
    unfold InputSpec.coherent at h
    split at h
    · cases h
    · split at h
      · cases h
      · split at h
        · cases h
        · rw [hnone, htype, hnot] at h
          cases h
  unfold Accepts
  rw [htype]
  exact List.any_eq_true.1 hin

/-- The filled-in inputs of a valid map are valid when the defaults
are. -/
theorem validateInputs_applyDefaults_iff {m : Manifest K} (hm : m.Valid)
    {raw : Dict K} (h : m.validateInputs raw = []) :
    m.validateInputs (m.applyDefaults raw) = [] ↔ DefaultsFit m raw := by
  obtain ⟨haccepts, hrequired, hdeclared⟩ := validateInputs_eq_nil_iff.1 h
  rw [validateInputs_eq_nil_iff, applyDefaults_eq_foldl]
  constructor
  · intro h
    obtain ⟨hagain, -⟩ := h
    intro p hp hraw hdefault _
    apply hagain p hp p.2.default
    rw [supplied_applyDefaults hm.keys hp hraw, isNone_eq_false.2 hdefault]
    rfl
  · intro hfit
    refine ⟨?_, ?_, ?_⟩
    · intro p hp v hv
      cases hraw : supplied raw p.1 with
      | some w =>
          rw [supplied_foldl_of_some hraw] at hv
          cases hv
          exact haccepts p hp v hraw
      | none =>
          rw [supplied_applyDefaults hm.keys hp hraw] at hv
          split at hv
          · cases hv
          · next hnone =>
            cases hv
            have hdefault : p.2.default ≠ .none :=
              fun heq => hnone (isNone_eq_true.2 heq)
            by_cases htype : p.2.type = .enum
            · exact accepts_enum_default (hm.coherent p hp) htype hdefault
            · exact hfit p hp hraw hdefault htype
    · intro p hp hreq hdefault
      obtain ⟨v, hv⟩ := hrequired p hp hreq hdefault
      exact ⟨v, supplied_foldl_of_some hv⟩
    · intro e he
      rcases mem_applyDefaults he with he | hspec
      · exact hdeclared e he
      · exact hspec

end Manifest

namespace Api

open Manifest Registry Harness

variable [Field K] [LinearOrder K]

/-- What is asked of the inputs of a hire that has been accepted: there
is nothing more to fill in, they are valid again, and `run_hire` does not
refuse them. -/
structure StaysAccepted (m : Manifest K) (tier : Nat) (inputs : Dict K) :
    Prop where
  idem : m.applyDefaults inputs = inputs
  valid : m.validateInputs inputs = []
  runs : ∀ e, acceptInputs m tier inputs = .error e →
    e.cls ≠ .InputValidationError

/-- A request that is accepted: its tier is declared, its inputs passed the
checks, and the defaults were filled in after that. -/
theorem createHire_eq_ok {entry : AgentEntry (Manifest K)} {m : Manifest K}
    {unimplemented : Option String} {agentId : String} {tier : PyVal K}
    {raw inputs : Dict K} {t : Nat} (hentry : entry.manifest = some m)
    (h : createHire (some entry) unimplemented agentId tier raw
      = .ok (t, inputs)) :
    t ∈ m.tiers ∧ m.validateInputs raw = []
      ∧ inputs = m.applyDefaults raw := by
  unfold createHire at h
  split at h
  case h_1 => cases h
  case h_2 m' hfound =>
      have hm : m' = m := by
        rw [Option.bind_some, hentry] at hfound
        split at hfound
        · exact (Option.some.inj hfound).symm
        · cases hfound
      rw [hm] at h
      split at h
      case h_1 reason => cases h
      case h_2 =>
          split at h
          case h_1 => cases h
          case h_2 t' htier =>
              split at h
              case h_1 hvalid =>
                  cases h
                  exact ⟨List.mem_of_find?_eq_some htier, hvalid, rfl⟩
              case h_2 => cases h

/-- A hire that the API answered with 202 stays accepted exactly when the
defaults filled in fit their own inputs. -/
theorem stays_accepted_iff {entry : AgentEntry (Manifest K)}
    {m : Manifest K} (hm : m.Valid) {unimplemented : Option String}
    {agentId : String} {tier : PyVal K} {raw inputs : Dict K} {t : Nat}
    (hentry : entry.manifest = some m)
    (h : createHire (some entry) unimplemented agentId tier raw
      = .ok (t, inputs)) :
    StaysAccepted m t inputs ↔ DefaultsFit m raw := by
  obtain ⟨htier, hvalid, rfl⟩ := createHire_eq_ok hentry h
  rw [← validateInputs_applyDefaults_iff hm hvalid]
  refine ⟨StaysAccepted.valid, fun hagain => ?_⟩
  refine ⟨applyDefaults_idem m raw, hagain, ?_⟩
  intro e he
  unfold acceptInputs at he
  rw [if_neg (not_not.2 htier), hagain] at he
  cases he

-- ======================================================== two manifests

/-- An agent that is available. -/
def entryOf (m : Manifest K) : AgentEntry (Manifest K) :=
  ⟨m.id, m.id, some m, true, none⟩

theorem stays_accepted_grid :
    ∃ t inputs, createHire (some (entryOf (BnbGrid.manifest (K := ℚ)))) none
        "bnb-grid" (.int 1) [("capital_usd", .int 500)] = .ok (t, inputs)
      ∧ StaysAccepted BnbGrid.manifest t inputs := by
  obtain ⟨hire, hcreated, -⟩ := exists_of_okAnd
    (x := createHire (some (entryOf (BnbGrid.manifest (K := ℚ)))) none
      "bnb-grid" (.int 1) [("capital_usd", .int 500)])
    (p := fun _ => true) (by decide +kernel)
  have hvalid : (BnbGrid.manifest (K := ℚ)).Valid :=
    { keys := by decide +kernel
      coherent := by
        intro p hp
        simp only [BnbGrid.manifest, List.mem_cons, List.not_mem_nil,
          or_false] at hp
        rcases hp with rfl | rfl | rfl | rfl
        · decide +kernel
        · decide +kernel
        · decide +kernel
        · decide +kernel
      tiers := by decide
      tierRules := by decide +kernel
      maxLossPct := by
        intro x h
        cases h
        norm_num }
  refine ⟨hire.1, hire.2, hcreated,
    (stays_accepted_iff hvalid rfl hcreated).2 ?_⟩
  intro p hp hraw hdefault htype
  simp only [BnbGrid.manifest, List.mem_cons, List.not_mem_nil,
    or_false] at hp
  rcases hp with rfl | rfl | rfl | rfl
  · exact absurd rfl htype
  · exact absurd rfl hdefault
  · refine ⟨.fin 12, by decide +kernel, ?_, ?_⟩
    · intro m h
      cases h
      decide +kernel
    · intro m h
      cases h
      decide +kernel
  · exact absurd rfl htype

/-- A default beyond its own bound. -/
def fiftyLevels : Manifest ℚ where
  id := "grid"
  tiers := [1]
  inputs :=
    [("grid_levels",
      { type := .number, min := some (.fin 5), max := some (.fin 30),
        default := .int 50 })]
  baseline := "hodl"
  advantageMetric :=
    { name := "net_pnl_usd", unit := "USD", higherIsBetter := true }
  maxLossPct := some 5

/-- A manifest the schema accepts, whose default its own bound refuses. -/
theorem valid_fiftyLevels : fiftyLevels.Valid where
  keys := by decide
  coherent := by
    intro p hp
    simp only [fiftyLevels, List.mem_cons, List.not_mem_nil, or_false] at hp
    rw [hp]
    decide +kernel
  tiers := by decide
  tierRules := by decide +kernel
  maxLossPct := by
    intro x h
    cases h
    norm_num

/-- A hire of nothing but defaults is accepted, and fails in
`run_hire`. -/
theorem accepted_hire_refused :
    fiftyLevels.Valid
      ∧ ∃ t inputs, createHire (some (entryOf fiftyLevels)) none "grid"
          (.int 1) [] = .ok (t, inputs)
        ∧ (∃ e, acceptInputs fiftyLevels t inputs = .error e
          ∧ e.cls = .InputValidationError)
        ∧ ¬ StaysAccepted fiftyLevels t inputs := by
  obtain ⟨⟨t, inputs⟩, hcreated, hrun⟩ := exists_of_okAnd
    (x := createHire (some (entryOf fiftyLevels)) none "grid" (.int 1) [])
    (p := fun hire => match acceptInputs fiftyLevels hire.1 hire.2 with
      | .error e => decide (e.cls = .InputValidationError)
      | .ok _ => false) (by decide +kernel)
  have hfails : ∃ e, acceptInputs fiftyLevels t inputs = .error e
      ∧ e.cls = .InputValidationError := by
    dsimp only at hrun
    split at hrun
    case h_1 e he => exact ⟨e, he, of_decide_eq_true hrun⟩
    case h_2 => cases hrun
  obtain ⟨e, he, hcls⟩ := hfails
  exact ⟨valid_fiftyLevels, t, inputs, hcreated, ⟨e, he, hcls⟩,
    fun hstays => hstays.runs e he hcls⟩

end Api

end Proofstand
