/-
`agents/manifest.py`: the part of an agent's manifest a hire reads, what
makes it a valid one, and the hire-time validation and defaulting of its
inputs.

A manifest's display fields (name, category, one-liner, data deps,
pricing, sentry gate) are left out: no modelled function reads them.
-/
import Proofstand.Python.Value

namespace Proofstand

/-- `InputType`. -/
inductive InputType
  | address | number | enum | string | bool
  deriving DecidableEq, Repr

/-- One declared input. `default` is `none` for Python's `None`. -/
structure InputSpec (K : Type) where
  type : InputType
  required : Bool := false
  default : PyVal K := .none
  min : Option (PyFloat K) := none
  max : Option (PyFloat K) := none
  values : List (PyVal K) := []

/-- `_coherent`. -/
def InputSpec.coherent {K : Type} [Field K] [LinearOrder K]
    (spec : InputSpec K) : Py Unit :=
  if spec.type = .enum ∧ spec.values.isEmpty then
    raise .ValueError "enum input needs `values`"
  else if spec.type ≠ .enum ∧ !spec.values.isEmpty then
    raise .ValueError "`values` only valid for enum inputs"
  else if spec.type ≠ .number ∧ (spec.min.isSome ∨ spec.max.isSome) then
    raise .ValueError "`min`/`max` only valid for number inputs"
  else if !spec.default.isNone ∧ spec.type = .enum
      ∧ !spec.values.any spec.default.pyEq then
    raise .ValueError "default not in values"
  else .ok ()

/-- `advantage_metric`: what an agent is measured in, and which side of zero
is a gain. -/
structure AdvantageMetric where
  name : String
  unit : String
  higherIsBetter : Bool
  deriving DecidableEq, Repr

/-- `Manifest`, as far as a hire reads it. -/
structure Manifest (K : Type) where
  id : String
  tiers : List Nat
  inputs : List (String × InputSpec K)
  baseline : String
  advantageMetric : AdvantageMetric
  /-- `kill_switch.max_loss_pct` -/
  maxLossPct : Option K

/-- `_tier_rules`. -/
def Manifest.tierRules {K : Type} (m : Manifest K) : Py Unit :=
  if ¬ m.tiers.Nodup then raise .ValueError "duplicate tiers"
  else if 2 ∈ m.tiers ∧ m.maxLossPct = none then
    raise .ValueError "a Tier 2 agent must declare a kill_switch (spec.md §S4)"
  else .ok ()

/-- A manifest that passes model validation; its inputs are a dict. -/
structure Manifest.Valid {K : Type} [Field K] [LinearOrder K]
    (m : Manifest K) : Prop where
  keys : (m.inputs.map Prod.fst).Nodup
  coherent : ∀ p ∈ m.inputs, p.2.coherent = .ok ()
  tiers : m.tiers ≠ [] ∧ ∀ t ∈ m.tiers, t ≤ 2
  tierRules : m.tierRules = .ok ()
  maxLossPct : ∀ x, m.maxLossPct = some x → 0 < x ∧ x ≤ 100

/-- What `validate_inputs` can say about a field. -/
inductive InputError (K : Type)
  | required
  | notANumber
  | below (bound : PyFloat K)
  | above (bound : PyFloat K)
  | notOneOf (values : List (PyVal K))
  | notAnAddress
  | notABool
  | unknown

/-- A dict, its keys in insertion order. -/
abbrev Dict (K : Type) := List (String × PyVal K)

/-- `d[k] = v`. -/
def Dict.set {K : Type} : Dict K → String → PyVal K → Dict K
  | [], k, v => [(k, v)]
  | (k', v') :: kvs, k, v =>
      if k' = k then (k, v) :: kvs else (k', v') :: Dict.set kvs k v

namespace Manifest

variable {K : Type} [Field K] [LinearOrder K]

/-- The check of a supplied value against its spec. -/
def checkInput (spec : InputSpec K) (v : PyVal K) : Option (InputError K) :=
  match spec.type with
  | .number =>
      match v.pyFloat with
      | .error _ => some .notANumber
      | .ok fv =>
          match spec.min.filter (fun m => fv.lt m),
              spec.max.filter (fun m => m.lt fv) with
          | some m, _ => some (.below m)
          | none, some m => some (.above m)
          | none, none => none
  | .enum =>
      if spec.values.any v.pyEq then none else some (.notOneOf spec.values)
  | .address =>
      -- no other value's `str()` starts with 0x
      match v.asText? with
      | some s =>
          if "0x".toList.isPrefixOf s.toList ∧ s.length = 42 then none
          else some .notAnAddress
      | none => some .notAnAddress
  | .bool =>
      match v with
      | .bool _ => none
      | _ => some .notABool
  | .string => none

/-- The value `raw` supplies under a name; `None` counts as absent. -/
def supplied (raw : Dict K) (name : String) : Option (PyVal K) :=
  (raw.lookup name).filter fun v => !v.isNone

/-- What is wrong with a hire's inputs, field by field. -/
def validateInputs (m : Manifest K) (raw : Dict K) :
    List (String × InputError K) :=
  (m.inputs.filterMap fun (name, spec) =>
    match supplied raw name with
    | none =>
        if spec.required ∧ spec.default.isNone then some (name, .required)
        else none
    | some v => (checkInput spec v).map fun e => (name, e))
  ++ ((raw.filter fun p => (m.inputs.lookup p.1).isNone).map
    fun p => (p.1, .unknown))

/-- `raw` with the declared defaults filled in. -/
def applyDefaults (m : Manifest K) (raw : Dict K) : Dict K :=
  m.inputs.foldl
    (fun out (name, spec) =>
      if (supplied out name).isNone ∧ !spec.default.isNone then
        out.set name spec.default
      else out)
    raw

end Manifest

end Proofstand
