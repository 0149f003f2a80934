/-
`registry.py`: what the text of one file can do to the others' entries.

# One file

A file gets an entry in one of three ways (`Reads`): its text is not
YAML, or it is a dict that validates, or one that does not. A text in
none of them raises, and no registry is built at all.

# All files

The loop puts each entry under its id, over what was there, so an id is
its last file's (`lookup_loadRegistry`). Replacing one text therefore
reaches another agent's entry in one way only: the new text takes that
agent's id in a directory that sorts after it (`isolated_iff`).
-/
import Proofstand.Orchestrator.Registry
import Proofstand.Python.Value
import Proofstand.Agents.Manifest

namespace Proofstand.Registry

open Fallible Hex

variable {V M : Type}

-- ============================================================== one file

/-- The ways a file gets an entry, each with the manifest and the id it
gets. -/
inductive Reads (io : Loader V M) (name : String) (b : Bytes) :
    Option M → String → Prop
  | notYaml {e : Exc} (hparse : parse io b = .error e)
      (hcls : e.cls = .YAMLError) : Reads io name b none name
  | valid {v : V} {s : String} {m : M} (hparse : parse io b = .ok v)
      (hrid : rid io name (orEmpty io v) = .ok s)
      (hvalid : io.modelValidate (orEmpty io v) = .ok m) :
      Reads io name b (some m) (io.id m)
  | invalid {v : V} {s : String} {e : Exc} (hparse : parse io b = .ok v)
      (hrid : rid io name (orEmpty io v) = .ok s)
      (hvalid : io.modelValidate (orEmpty io v) = .error e)
      (hcls : e.cls = .ValidationError) : Reads io name b none s

/-- The file gets an entry at all. -/
def Readable (io : Loader V M) (name : String) (b : Bytes) : Prop :=
  ∃ m id, Reads io name b m id

theorem loadOne_of_reads {io : Loader V M} {name : String} {b : Bytes}
    {m : Option M} {id : String} (h : Reads io name b m id) :
    ∃ e, loadOne io (name, b) = .ok e ∧ e.id = id ∧ e.manifest = m := by
  cases h with
  | @notYaml e hparse hcls =>
      refine ⟨⟨name, name, none, false, some ("yaml error: " ++ e.msg)⟩, ?_,
        rfl, rfl⟩
      rw [loadOne, hparse]
      exact if_pos hcls
  | @valid v s m hparse hrid hvalid =>
      refine ⟨⟨io.id m, name, some m, true, none⟩, ?_, rfl, rfl⟩
      simp only [loadOne, hparse, hrid, hvalid, ok_bind]
  | @invalid v s e hparse hrid hvalid hcls =>
      refine ⟨⟨id, name, none, false,
        some ("invalid manifest: " ++ e.msg)⟩, ?_, rfl, rfl⟩
      simp only [loadOne, hparse, hrid, hvalid, ok_bind]
      exact if_pos hcls

/-- An entry is of its file, and is available with a manifest or
unavailable without. -/
theorem reads_of_loadOne {io : Loader V M} {mf : String × Bytes}
    {e : AgentEntry M} (h : loadOne io mf = .ok e) :
    Reads io mf.1 mf.2 e.manifest e.id ∧ e.dir = mf.1
      ∧ e.available = e.manifest.isSome := by
  unfold loadOne at h
  cases hparse : parse io mf.2 with
  | error exc =>
      rw [hparse] at h
      simp only at h
      split at h
      · rename_i hcls
        obtain rfl := Except.ok.inj h
        exact ⟨.notYaml hparse hcls, rfl, rfl⟩
      · cases h
  | ok v =>
      rw [hparse] at h
      obtain ⟨s, hrid, h⟩ := bind_eq_ok.1 h
      cases hvalid : io.modelValidate (orEmpty io v) with
      | ok m =>
          rw [hvalid] at h
          obtain rfl := Except.ok.inj h
          exact ⟨.valid hparse hrid hvalid, rfl, rfl⟩
      | error exc =>
          rw [hvalid] at h
          simp only at h
          split at h
          · rename_i hcls
            obtain rfl := Except.ok.inj h
            exact ⟨.invalid hparse hrid hvalid hcls, rfl, rfl⟩
          · cases h

theorem readable_iff_loadOne {io : Loader V M} {mf : String × Bytes} :
    Readable io mf.1 mf.2 ↔ ∃ e, loadOne io mf = .ok e := by
  constructor
  · intro hread
    obtain ⟨m, id, h⟩ := hread
    obtain ⟨e, he, -⟩ := loadOne_of_reads h
    exact ⟨e, he⟩
  · intro hload
    obtain ⟨e, he⟩ := hload
    exact ⟨_, _, (reads_of_loadOne he).1⟩

/-- A file is read in one way. -/
theorem Reads.id_eq {io : Loader V M} {name : String} {b : Bytes}
    {m m' : Option M} {id id' : String} (h : Reads io name b m id)
    (h' : Reads io name b m' id') : id = id' := by
  obtain ⟨e, he, rfl, -⟩ := loadOne_of_reads h
  obtain ⟨e', he', rfl, -⟩ := loadOne_of_reads h'
  obtain rfl : e = e' := Except.ok.inj (he.symm.trans he')
  rfl

-- ============================================================= all files

/-- The files are read in the order of their directories' names. -/
theorem manifestPaths_pairwise (dir : AgentsDir) (includeHidden : Bool) :
    (manifestPaths dir includeHidden).Pairwise fun a c => a.1 < c.1 := by
  have hperm := List.perm_insertionSort
    (fun a b : String × Bytes => a.1 ≤ b.1) dir.files
  have hsorted : (dir.files.insertionSort fun a b => a.1 ≤ b.1).Pairwise
      fun a b => a.1 ≤ b.1 :=
    List.pairwise_insertionSort _ _
  have hdistinct : (dir.files.insertionSort fun a b => a.1 ≤ b.1).Pairwise
      fun a b => a.1 ≠ b.1 := by
    rw [← List.pairwise_map]
    exact (hperm.map Prod.fst).nodup_iff.2 dir.distinct
  apply List.Pairwise.filter
  exact hsorted.imp₂ (fun _ _ hle hne => lt_of_le_of_ne hle hne) hdistinct

theorem mem_manifestPaths_iff {dir : AgentsDir} {includeHidden : Bool}
    {mf : String × Bytes} :
    mf ∈ manifestPaths dir includeHidden
      ↔ mf ∈ dir.files ∧ (includeHidden || !isHidden mf.1) = true := by
  rw [manifestPaths, List.mem_filter, List.mem_insertionSort]

/-- A registry is built exactly when every file it reads gets an entry. -/
theorem loadRegistry_returns_iff {io : Loader V M} {dir : AgentsDir}
    {includeHidden : Bool} :
    (∃ out, loadRegistry io dir includeHidden = .ok out)
      ↔ ∀ mf ∈ manifestPaths dir includeHidden, Readable io mf.1 mf.2 := by
  rw [loadRegistry, Keyed.fill_returns_iff]
  simp only [readable_iff_loadOne]

/-- An id is its last file's. -/
theorem lookup_loadRegistry {io : Loader V M} {dir : AgentsDir}
    {includeHidden : Bool} {out : List (String × AgentEntry M)}
    (h : loadRegistry io dir includeHidden = .ok out) {id : String}
    {e : AgentEntry M} :
    out.lookup id = some e
      ↔ Keyed.LastRow AgentEntry.id (loadOne io) Prod.fst
          (manifestPaths dir includeHidden) id e :=
  Keyed.lookup_fill_iff (manifestPaths_pairwise dir includeHidden) h

-- ======================================================= one text replaced

theorem eq_of_name {dir : AgentsDir} {name : String} {old : Bytes}
    (hfile : (name, old) ∈ dir.files) {mf : String × Bytes}
    (hmf : mf ∈ dir.files) (hname : mf.1 = name) : mf = (name, old) :=
  List.inj_on_of_nodup_map dir.distinct hmf hfile hname

/-- The files read are the same but for the new text. -/
theorem mem_manifestPaths_replace {dir : AgentsDir} {name : String}
    {old t : Bytes} (hfile : (name, old) ∈ dir.files) {includeHidden : Bool}
    {mf : String × Bytes} :
    mf ∈ manifestPaths (dir.replace name t) includeHidden
      ↔ mf ∈ manifestPaths dir includeHidden ∧ mf.1 ≠ name
        ∨ mf = (name, t)
          ∧ (name, old) ∈ manifestPaths dir includeHidden := by
  simp only [mem_manifestPaths_iff]
  constructor
  · intro hpath
    obtain ⟨hmf, hseen⟩ := hpath
    obtain ⟨mf₀, hmf₀, rfl⟩ := List.mem_map.1 hmf
    rw [retext_fst] at hseen
    by_cases hname : mf₀.1 = name
    · obtain rfl := eq_of_name hfile hmf₀ hname
      exact Or.inr ⟨if_pos rfl, hfile, hseen⟩
    · rw [retext, if_neg hname]
      exact Or.inl ⟨⟨hmf₀, hseen⟩, hname⟩
  · intro hpath
    rcases hpath with ⟨⟨hmf, hseen⟩, hname⟩ | ⟨rfl, -, hseen⟩
    · exact ⟨List.mem_map.2 ⟨mf, hmf, if_neg hname⟩, hseen⟩
    · exact ⟨List.mem_map.2 ⟨(name, old), hfile, if_pos rfl⟩, hseen⟩

/-- The registry is built over the new text; the available entries of the
other files are as they were; and the file itself, where its new text is no
valid manifest, is unavailable or absent. -/
def Isolated (io : Loader V M) (dir : AgentsDir) (includeHidden : Bool)
    (name : String) (t : Bytes) : Prop :=
  ∃ out', loadRegistry io (dir.replace name t) includeHidden = .ok out'
    ∧ (∀ out, loadRegistry io dir includeHidden = .ok out →
        ∀ id e, out.lookup id = some e → e.available = true →
          e.dir ≠ name → out'.lookup id = some e)
    ∧ ∀ id e, out'.lookup id = some e → e.dir = name →
        (∀ m id', ¬ Reads io name t (some m) id') →
        e.available = false ∧ e.manifest = none

/-- The other files get entries, and the new text gets one: not under the
id of a valid manifest that is read before it, unless a file read after
that one had taken its id already. -/
structure Contained (io : Loader V M) (dir : AgentsDir)
    (includeHidden : Bool) (name : String) (old t : Bytes) : Prop where
  others : ∀ mf ∈ manifestPaths dir includeHidden, mf.1 ≠ name →
    Readable io mf.1 mf.2
  text : (name, old) ∈ manifestPaths dir includeHidden →
    ∃ m id, Reads io name t m id
      ∧ (Readable io name old →
        ∀ mf ∈ manifestPaths dir includeHidden, mf.1 < name →
          ∀ m', Reads io mf.1 mf.2 (some m') id →
          ∃ mf' ∈ manifestPaths dir includeHidden, mf.1 < mf'.1
            ∧ ∃ m'', Reads io mf'.1 mf'.2 m'' id)

theorem isolated_of_contained {io : Loader V M} {dir : AgentsDir}
    {includeHidden : Bool} {name : String} {old t : Bytes}
    (hfile : (name, old) ∈ dir.files)
    (h : Contained io dir includeHidden name old t) :
    Isolated io dir includeHidden name t := by
  obtain ⟨out', hout'⟩ : ∃ out', loadRegistry io (dir.replace name t)
      includeHidden = .ok out' := by
    rw [loadRegistry_returns_iff]
    intro mf hmf
    rcases (mem_manifestPaths_replace hfile).1 hmf
      with ⟨hmf, hname⟩ | ⟨rfl, hseen⟩
    · exact h.others mf hmf hname
    · obtain ⟨m, id, hreads, -⟩ := h.text hseen
      exact ⟨m, id, hreads⟩
  refine ⟨out', hout', ?_, ?_⟩
  · intro out hout id e he havail hdir
    obtain ⟨mf, hmf, hload, hid, hlast⟩ := (lookup_loadRegistry hout).1 he
    obtain ⟨hreads, hof, hsome⟩ := reads_of_loadOne hload
    rw [hof] at hdir
    refine (lookup_loadRegistry hout').2 ⟨mf,
      (mem_manifestPaths_replace hfile).2 (Or.inl ⟨hmf, hdir⟩), hload, hid, ?_⟩
    intro c hc hlater e' he'
    rcases (mem_manifestPaths_replace hfile).1 hc
      with ⟨hc, -⟩ | ⟨rfl, hseen⟩
    · exact hlast c hc hlater e' he'
    · -- the new text, read after the entry's own file
      intro htaken
      obtain ⟨m, id', ht, hfree⟩ := h.text hseen
      obtain rfl : id' = id :=
        (ht.id_eq (reads_of_loadOne he').1).trans htaken
      have hold : Readable io name old :=
        loadRegistry_returns_iff.1 ⟨out, hout⟩ (name, old) hseen
      rw [havail, eq_comm] at hsome
      obtain ⟨m', hm'⟩ := Option.isSome_iff_exists.1 hsome
      rw [hm', hid] at hreads
      obtain ⟨mf', hmf', hbetween, m'', hreads'⟩ :=
        hfree hold mf hmf hlater m' hreads
      obtain ⟨e'', he'', hid'', -⟩ := loadOne_of_reads hreads'
      exact hlast mf' hmf' hbetween e'' he'' hid''
  · intro id e he hdir hinvalid
    obtain ⟨mf, hmf, hload, -⟩ := (lookup_loadRegistry hout').1 he
    obtain ⟨hreads, hof, hsome⟩ := reads_of_loadOne hload
    rcases (mem_manifestPaths_replace hfile).1 hmf with ⟨-, hname⟩ | ⟨rfl, -⟩
    · exact absurd (hof.symm.trans hdir) hname
    · cases hm : e.manifest with
      | none =>
          rw [hm] at hsome
          exact ⟨hsome, rfl⟩
      | some m =>
          rw [hm] at hreads
          exact absurd hreads (hinvalid m e.id)

theorem contained_of_isolated {io : Loader V M} {dir : AgentsDir}
    {includeHidden : Bool} {name : String} {old t : Bytes}
    (hfile : (name, old) ∈ dir.files)
    (h : Isolated io dir includeHidden name t) :
    Contained io dir includeHidden name old t := by
  obtain ⟨out', hout', hkept, -⟩ := h
  have hread := loadRegistry_returns_iff.1 ⟨out', hout'⟩
  have hothers : ∀ mf ∈ manifestPaths dir includeHidden, mf.1 ≠ name →
      Readable io mf.1 mf.2 := fun mf hmf hname =>
    hread mf ((mem_manifestPaths_replace hfile).2 (Or.inl ⟨hmf, hname⟩))
  refine ⟨hothers, fun hseen => ?_⟩
  have hmem : (name, t) ∈ manifestPaths (dir.replace name t) includeHidden :=
    (mem_manifestPaths_replace hfile).2 (Or.inr ⟨rfl, hseen⟩)
  obtain ⟨m, id, ht⟩ := hread (name, t) hmem
  refine ⟨m, id, ht, fun hold mf hmf hbefore m' hreads => ?_⟩
  obtain ⟨out, hout⟩ : ∃ out, loadRegistry io dir includeHidden = .ok out := by
    rw [loadRegistry_returns_iff]
    intro c hc
    by_cases hname : c.1 = name
    · obtain rfl := eq_of_name hfile (mem_manifestPaths_iff.1 hc).1 hname
      exact hold
    · exact hothers c hc hname
  -- were no later file to take the id, the entry would be the first file's
  by_contra hnone
  obtain ⟨e, he, hid, hmanifest⟩ := loadOne_of_reads hreads
  obtain ⟨-, hof, hsome⟩ := reads_of_loadOne he
  have hentry : out.lookup id = some e := by
    refine (lookup_loadRegistry hout).2 ⟨mf, hmf, he, hid, ?_⟩
    intro c hc hlater e' he' hid'
    exact hnone ⟨c, hc, hlater, _, hid' ▸ (reads_of_loadOne he').1⟩
  have havail : e.available = true := by
    rw [hsome, hmanifest]
    rfl
  have hdir : e.dir ≠ name := by
    rw [hof]
    exact hbefore.ne
  obtain ⟨c, -, hc, -, hlast⟩ := (lookup_loadRegistry hout').1
    (hkept out hout id e hentry havail hdir)
  have hname : c.1 = mf.1 := (reads_of_loadOne hc).2.1.symm.trans hof
  obtain ⟨e', he', hid', -⟩ := loadOne_of_reads ht
  exact hlast (name, t) hmem (hname.trans_lt hbefore) e' he' hid'

/-- Replacing one file's text leaves the other agents alone exactly when
every file can be read and the new text takes no id of an agent read
before it. -/
theorem isolated_iff {io : Loader V M} {dir : AgentsDir} {name : String}
    {old : Bytes} (hfile : (name, old) ∈ dir.files) (t : Bytes)
    (includeHidden : Bool) :
    Isolated io dir includeHidden name t
      ↔ Contained io dir includeHidden name old t :=
  ⟨contained_of_isolated hfile, isolated_of_contained hfile⟩

-- ========================================================== two agents

/-- The bytes of a text. -/
def utf8 (s : String) : Bytes :=
  s.toUTF8.data.toList.map fun b => Fin.ofNat 256 b.toNat

def goodText : String :=
  "id: good\nname: A\ncategory: grid\none_liner: x\ntiers: [0]\n" ++
  "baseline: b\nadvantage_metric:\n  name: x\n  unit: x\n" ++
  "  higher_is_better: yes\npricing:\n  model: free\n"

/-- The other agent's id, and a category that there is not. -/
def takenText : String :=
  "id: good\nname: B\ncategory: other\n"

/-- PyYAML on these texts, a plain scalar, an empty file, and a bracket left
open. -/
def sampleLoad (text : String) : Py (PyVal ℚ) :=
  if text = goodText then
    .ok (.dict [("id", .str "good"), ("name", .str "A"),
      ("category", .str "grid"), ("one_liner", .str "x"),
      ("tiers", .list [.int 0]), ("baseline", .str "b"),
      ("advantage_metric", .dict [("name", .str "x"), ("unit", .str "x"),
        ("higher_is_better", .bool true)]),
      ("pricing", .dict [("model", .str "free")])])
  else if text = takenText then
    .ok (.dict [("id", .str "good"), ("name", .str "B"),
      ("category", .str "other")])
  else if text = "text" then .ok (.str text)
  else if text = "" then .ok .none
  else raise .YAMLError "while parsing a flow sequence"

/-- The schema on these values: its required fields and its categories. -/
def sampleValidate (v : PyVal ℚ) : Py (Manifest ℚ) :=
  match v.get? "id", v.get? "category" with
  | some (.str id), some (.str category) =>
      if ["name", "one_liner", "tiers", "baseline", "advantage_metric",
            "pricing"].all v.hasKey
          ∧ category ∈ ["rebalancing", "grid", "yield", "health_factor",
            "security"] then
        .ok ⟨id, [0], [], "b", ⟨"x", "x", true⟩, none⟩
      else raise .ValidationError "validation error for Manifest"
  | _, _ => raise .ValidationError "validation error for Manifest"

def sampleLoader : Loader (PyVal ℚ) (Manifest ℚ) where
  decode b :=
    if b.all fun c => c.val < 128 then
      some (String.ofList (b.map fun c => Char.ofNat c.val))
    else none
  safeLoad := sampleLoad
  truthy := PyVal.truthy
  empty := .dict []
  dictGet
    | .dict kvs => some fun k => kvs.lookup k
    | _ => none
  str
    | .str s => .ok s
    | _ => .ok "a value"
  modelValidate := sampleValidate
  id := Manifest.id

/-- An agent, and a second one whose directory sorts after it. -/
def sampleDir : AgentsDir where
  files := [("bad", []), ("alpha", utf8 goodText)]
  distinct := by decide

/-- A text that is no dict raises; one with the other agent's id takes its
entry from it. -/
theorem other_agent_lost :
    ¬ Isolated sampleLoader sampleDir false "bad" (utf8 "text")
      ∧ ¬ Isolated sampleLoader sampleDir false "bad" (utf8 takenText) := by
  constructor
  · intro hisolated
    obtain ⟨out', hout', -⟩ := hisolated
    have hraises : okAnd (loadRegistry sampleLoader
        (sampleDir.replace "bad" (utf8 "text")) false)
        (fun _ => true) = false := by decide +kernel
    rw [hout'] at hraises
    cases hraises
  · intro hisolated
    obtain ⟨out', hout', hkept, -⟩ := hisolated
    obtain ⟨out, hout, hheld⟩ := exists_of_okAnd
      (x := loadRegistry sampleLoader sampleDir false)
      (p := fun out => (out.lookup "good").any fun e =>
        e.available && e.dir == "alpha") (by decide +kernel)
    obtain ⟨out₁, hout₁, hlost⟩ := exists_of_okAnd
      (x := loadRegistry sampleLoader
        (sampleDir.replace "bad" (utf8 takenText)) false)
      (p := fun out => (out.lookup "good").all fun e =>
        !e.available) (by decide +kernel)
    obtain rfl : out' = out₁ := Except.ok.inj (hout'.symm.trans hout₁)
    obtain ⟨e, he, hfacts⟩ := (Option.any_eq_true _ _).1 hheld
    rw [Bool.and_eq_true, beq_iff_eq] at hfacts
    have hdir : e.dir ≠ "bad" := by
      rw [hfacts.2]
      decide
    rw [hkept out hout "good" e he hfacts.1 hdir, Option.all_some,
      hfacts.1] at hlost
    cases hlost

/-- An open bracket makes its own agent unavailable, and no other. -/
theorem isolated_iff_open_bracket :
    Isolated sampleLoader sampleDir false "bad" (utf8 "id: [") := by
  have hfile : ("bad", ([] : Bytes)) ∈ sampleDir.files :=
    List.mem_cons_self
  apply (isolated_iff hfile (utf8 "id: [") false).2
  have hloads : ∀ mf ∈ manifestPaths sampleDir false,
      okAnd (loadOne sampleLoader mf) (fun e => e.id != "bad"
        || mf.1 == "bad") = true := by decide +kernel
  refine ⟨fun mf hmf _ => ?_, fun _ => ⟨none, "bad", ?_, ?_⟩⟩
  · obtain ⟨e, he, -⟩ := exists_of_okAnd (hloads mf hmf)
    exact readable_iff_loadOne.2 ⟨e, he⟩
  · have hparse : parse sampleLoader (utf8 "id: [")
        = raise .YAMLError "while parsing a flow sequence" := by
      rfl
    exact .notYaml hparse rfl
  · intro _ mf hmf hbefore m hreads
    obtain ⟨e, he, hid⟩ := exists_of_okAnd (hloads mf hmf)
    have hbad : e.id = "bad" := (reads_of_loadOne he).1.id_eq hreads
    rw [hbad] at hid
    exact absurd (by simpa using hid) hbefore.ne

end Proofstand.Registry
