/-
`orchestrator/registry.py`: the manifests under an agents directory, each
read into an entry, and the registry keyed by the entries' ids.

# What is assumed

Decoding, PyYAML, pydantic and `str()` are what `_load_one` calls, and
nothing is assumed of them: a YAML value and a validated manifest are of
any type. `YAMLError` and `ValidationError` stand for themselves and
their subclasses; every other class leaves `_load_one` as it was raised.

# Ids and directories

A file's id is that of its manifest, where it validates, or else the `id`
its YAML names, or else its directory's name. Nothing keeps two files from
one id: the directories are read in the order of their names, and the one
read last has the entry.

A directory is a list of names and bytes with distinct names, so
replacing one file's text is a map on it (`AgentsDir.replace`).
-/
import Proofstand.Python
import Proofstand.Lib.Keyed

namespace Proofstand.Registry

open Fallible Hex

variable {V M : Type}

/-- What `_load_one` calls. -/
structure Loader (V M : Type) where
  /-- the decoding of `read_text` -/
  decode : Bytes → Option String
  safeLoad : String → Py V
  truthy : V → Bool
  /-- `{}` -/
  empty : V
  /-- a dict's `get`; no other value has one -/
  dictGet : V → Option (String → Option V)
  str : V → Py String
  modelValidate : V → Py M
  /-- `m.id` -/
  id : M → String

/-- `AgentEntry`: a manifest, or why there is none. -/
structure AgentEntry (M : Type) where
  id : String
  dir : String
  manifest : Option M
  available : Bool
  error : Option String

/-- An agents directory: the directories with a `manifest.yaml`, each by
its name, with the bytes of that file. -/
structure AgentsDir where
  files : List (String × Bytes)
  distinct : (files.map Prod.fst).Nodup

/-- `yaml.safe_load(mf_path.read_text())`. -/
def parse (io : Loader V M) (b : Bytes) : Py V :=
  match io.decode b with
  | some text => io.safeLoad text
  | none => raise .UnicodeDecodeError "can't decode byte"

/-- `str(raw.get("id") or d.name)`. -/
def rid (io : Loader V M) (name : String) (raw : V) : Py String :=
  match io.dictGet raw with
  | none => raise .AttributeError "object has no attribute 'get'"
  | some get =>
      match (get "id").filter io.truthy with
      | some v => io.str v
      | none => .ok name

/-- `x or {}`. -/
def orEmpty (io : Loader V M) (v : V) : V :=
  if io.truthy v then v else io.empty

/-- One manifest file, read: available, unavailable, or raised. -/
def loadOne (io : Loader V M) (mf : String × Bytes) : Py (AgentEntry M) :=
  match parse io mf.2 with
  | .error e =>
      if e.cls = .YAMLError then
        .ok ⟨mf.1, mf.1, none, false, some ("yaml error: " ++ e.msg)⟩
      else .error e
  | .ok v => do
      let raw := orEmpty io v
      let id ← rid io mf.1 raw
      match io.modelValidate raw with
      | .ok m => .ok ⟨io.id m, mf.1, some m, true, none⟩
      | .error e =>
          if e.cls = .ValidationError then
            .ok ⟨id, mf.1, none, false, some ("invalid manifest: " ++ e.msg)⟩
          else .error e

/-- `name.startswith(("_", "."))`. -/
def isHidden (name : String) : Bool :=
  ['_'].isPrefixOf name.toList || ['.'].isPrefixOf name.toList

/-- The manifests the registry reads, in the order it reads them. -/
def manifestPaths (dir : AgentsDir) (includeHidden : Bool) :
    List (String × Bytes) :=
  (dir.files.insertionSort fun a b => a.1 ≤ b.1).filter fun mf =>
    includeHidden || !isHidden mf.1

/-- `load_registry`: every manifest file by its id, hidden ones on request. -/
def loadRegistry (io : Loader V M) (dir : AgentsDir) (includeHidden : Bool) :
    Py (List (String × AgentEntry M)) :=
  Keyed.fill AgentEntry.id (loadOne io) [] (manifestPaths dir includeHidden)

-- ================================================== replacing a file's text

/-- The text of one directory's file, replaced. -/
def retext (name : String) (t : Bytes) (mf : String × Bytes) :
    String × Bytes :=
  if mf.1 = name then (mf.1, t) else mf

@[simp] theorem retext_fst (name : String) (t : Bytes)
    (mf : String × Bytes) : (retext name t mf).1 = mf.1 := by
  unfold retext
  split <;> rfl

/-- The directory with another text in one file. -/
def AgentsDir.replace (dir : AgentsDir) (name : String) (t : Bytes) :
    AgentsDir where
  files := dir.files.map (retext name t)
  distinct := by
    rw [List.map_map]
    have hnames : Prod.fst ∘ retext name t = Prod.fst := by
      funext mf
      exact retext_fst name t mf
    rw [hnames]
    exact dir.distinct

end Proofstand.Registry
