import ClusterPackages.Document
import ClusterPackages.Proofs.RecordRoundTrip

/-! Catalogs, version indexes and manifests that were read from JSON are written as trees from which
they are read again, the same in every part. What is left out of a tree is what is there at first,
raw values stand in it as they are, and no two entries of an object have one name. -/

namespace ClusterPackages

open ClusterPackages.Field

/-! ## What is left out -/

/-- The keys of a record, each with what it takes for its entry to be left out of the tree. -/
def LeavesOut {σ : Type} (encode : σ → Value) (keys : List (String × (σ → Prop))) : Prop :=
  ∀ x key, (encode x).get? key = none ↔ ∀ k ∈ keys, k.1 = key → k.2 x

namespace Field

variable {σ α : Type} {name : String} {c : Codec α}

/-- The field has the name, and is left out under the condition. -/
def Leaves (f : Field σ) (k : String × (σ → Prop)) : Prop := f.name = k.1 ∧ ∀ x, f.write x = none ↔ k.2 x

theorem leaves_mandatory {get : σ → α} {set : α → σ → σ} :
    (mandatory name c get set).Leaves (name, fun _ => False) :=
  ⟨rfl, fun _ => ⟨(fun h => nomatch h), False.elim⟩⟩

theorem leaves_always {get : σ → α} {set : α → σ → σ} :
    (always name c get set).Leaves (name, fun _ => False) :=
  ⟨rfl, fun _ => ⟨(fun h => nomatch h), False.elim⟩⟩

theorem leaves_textField {get : σ → String} {set : String → σ → σ} :
    (omitIf (· == "") name .text get set).Leaves (name, fun x => get x = "") :=
  ⟨rfl, fun x => by simp [omitIf]⟩

theorem leaves_listField {c : Codec (List α)} {get : σ → List α} {set : List α → σ → σ} :
    (omitIf List.isEmpty name c get set).Leaves (name, fun x => get x = []) :=
  ⟨rfl, fun x => by simp [omitIf]⟩

theorem leaves_optional {get : σ → Option α} {set : Option α → σ → σ} :
    (optional name c get set).Leaves (name, fun x => get x = none) :=
  ⟨rfl, fun x => by simp [optional]⟩

end Field

theorem Record.no_key_written_iff {σ : Type} {fields : List (Field σ)}
    {keys : List (String × (σ → Prop))} (h : List.Forall₂ Leaves fields keys) (x : σ) (key : String) :
    (∀ e ∈ written fields x, key ≠ e.1) ↔ ∀ k ∈ keys, k.1 = key → k.2 x := by
  induction h with
  | nil => simp [written]
  | @cons f k fields keys hf _ ih =>
    obtain ⟨hname, hleaves⟩ := hf
    rw [written, List.filterMap_cons, List.forall_mem_cons, ← ih, ← hleaves, ← hname]
    cases f.write x with
    | none => simp [written]
    | some v => simp [written, eq_comm]

theorem get?_object_eq_none_iff (es : List (String × Value)) (key : String) :
    (Value.object es).get? key = none ↔ ∀ e ∈ es, key ≠ e.1 := by
  rw [Value.get?, List.lookup_eq_none_iff]
  simp

theorem Record.leavesOut {σ : Type} {fields : List (Field σ)} {keys : List (String × (σ → Prop))}
    (h : List.Forall₂ Leaves fields keys) : LeavesOut (Record.encode fields) keys := fun x key =>
  (get?_object_eq_none_iff (written fields x) key).trans (no_key_written_iff h x key)

theorem Record.get?_encode {σ : Type} (fields : List (Field σ)) (h : (fields.map Field.name).Nodup)
    {f : Field σ} (hf : f ∈ fields) (x : σ) : (encode fields x).get? f.name = f.write x := by
  change (written fields x).lookup f.name = f.write x
  induction fields with
  | nil => cases hf
  | cons g fields ih =>
    obtain ⟨hg, hfields⟩ := List.nodup_cons.1 h
    have hrest : (written fields x).lookup g.name = none := by
      refine List.lookup_eq_none_iff.2 fun e he => bne_iff_ne.2 fun heq => hg (heq ▸ ?_)
      exact (keys_written_sublist fields x).subset (List.mem_map_of_mem he)
    rcases List.mem_cons.1 hf with rfl | hf
    · rw [written, List.filterMap_cons]
      cases hv : f.write x with
      | none => exact hrest
      | some v => exact List.lookup_cons_self
    · have hne : f.name ≠ g.name := fun heq => hg (heq ▸ List.mem_map_of_mem hf)
      rw [← ih hfields hf, written, List.filterMap_cons]
      cases g.write x with
      | none => rfl
      | some v => simp [List.lookup_cons, beq_false_of_ne hne, written]

/-- The form in which the records are written: their keys, and what raw values become. -/
structure WrittenForm : Prop where
  catalog : LeavesOut Catalog.codec.encode [("packages", fun _ => False)]
  catalogEntry : LeavesOut CatalogEntry.codec.encode
    [("name", fun _ => False), ("shortDescription", fun e => e.shortDescription = ""),
     ("iconUrl", fun e => e.iconUrl = ""), ("latestVersion", fun e => e.latestVersion = ""),
     ("scope", fun e => e.scope = none)]
  versionIndex : LeavesOut VersionIndex.codec.encode
    [("versions", fun _ => False), ("latestVersion", fun _ => False)]
  versionEntry : LeavesOut VersionEntry.codec.encode [("version", fun _ => False)]
  mergedCatalog : LeavesOut MergedCatalog.codec.encode [("packages", fun _ => False)]
  mergedEntry : LeavesOut MergedEntry.codec.encode
    [("name", fun _ => False), ("shortDescription", fun e => e.entry.shortDescription = ""),
     ("iconUrl", fun e => e.entry.iconUrl = ""), ("latestVersion", fun e => e.entry.latestVersion = ""),
     ("scope", fun e => e.entry.scope = none), ("repos", fun e => e.repos = [])]
  manifest : LeavesOut Manifest.codec.encode
    [("scope", fun m => m.scope = none), ("name", fun _ => False),
     ("shortDescription", fun m => m.shortDescription = ""),
     ("longDescription", fun m => m.longDescription = ""),
     ("references", fun m => m.references = []), ("iconUrl", fun m => m.iconUrl = ""),
     ("helm", fun m => m.helm = none), ("manifests", fun m => m.manifests = []),
     ("valueDefinitions", fun m => m.valueDefinitions = []),
     ("defaultNamespace", fun m => m.defaultNamespace = ""),
     ("entrypoints", fun m => m.entrypoints = []), ("dependencies", fun m => m.dependencies = [])]
  reference : LeavesOut PackageReference.codec.encode
    [("label", fun _ => False), ("url", fun _ => False)]
  helm : LeavesOut HelmRelease.codec.encode
    [("repositoryUrl", fun _ => False), ("chartName", fun _ => False),
     ("chartVersion", fun _ => False), ("values", fun h => h.values = none)]
  plainManifest : LeavesOut PlainManifest.codec.encode
    [("url", fun _ => False), ("defaultNamespace", fun p => p.defaultNamespace = "")]
  entrypoint : LeavesOut Entrypoint.codec.encode
    [("name", fun e => e.name = ""), ("serviceName", fun _ => False), ("port", fun _ => False),
     ("localPort", fun e => e.localPort = none), ("scheme", fun e => e.scheme = "")]
  dependency : LeavesOut Dependency.codec.encode
    [("name", fun _ => False), ("version", fun d => d.version = "")]
  values : ∀ h : HelmRelease, (HelmRelease.codec.encode h).get? "values" = h.values
  valueDefinitions : ∀ m : Manifest, m.valueDefinitions ≠ [] →
    (Manifest.codec.encode m).get? "valueDefinitions" = some (.object m.valueDefinitions)

theorem MergedEntry.leavesOut : LeavesOut MergedEntry.codec.encode
    [("name", fun _ => False), ("shortDescription", fun e => e.entry.shortDescription = ""),
     ("iconUrl", fun e => e.entry.iconUrl = ""), ("latestVersion", fun e => e.entry.latestVersion = ""),
     ("scope", fun e => e.entry.scope = none), ("repos", fun e => e.repos = [])] := by
  intro x key
  have hentry : (∀ e ∈ Record.written CatalogEntry.fields x.entry, key ≠ e.1) ↔ _ :=
    Record.no_key_written_iff (.cons leaves_mandatory <| .cons leaves_textField <|
      .cons leaves_textField <| .cons leaves_textField <| .cons leaves_optional .nil) x.entry key
  have hrepos : (∀ e ∈ Record.written [reposField] x, key ≠ e.1) ↔ _ :=
    Record.no_key_written_iff (.cons leaves_listField .nil) x key
  refine (get?_object_eq_none_iff
    (Record.written CatalogEntry.fields x.entry ++ Record.written [reposField] x) key).trans ?_
  rw [List.forall_mem_append, hentry, hrepos]
  simp [and_assoc]

def HelmRelease.valuesField : Field HelmRelease :=
  .optional "values" .raw (·.values) (fun v x => { x with values := v })

def Manifest.valueDefinitionsField : Field Manifest :=
  .omitIf List.isEmpty "valueDefinitions" (.map .raw) (·.valueDefinitions)
    (fun m x => { x with valueDefinitions := m })

open HelmRelease Manifest in
theorem writtenForm : WrittenForm where
  catalog := Record.leavesOut (.cons leaves_always .nil)
  catalogEntry := Record.leavesOut (.cons leaves_mandatory <| .cons leaves_textField <|
    .cons leaves_textField <| .cons leaves_textField <| .cons leaves_optional .nil)
  versionIndex := Record.leavesOut (.cons leaves_always <| .cons leaves_always .nil)
  versionEntry := Record.leavesOut (.cons leaves_mandatory .nil)
  mergedCatalog := Record.leavesOut (.cons leaves_mandatory .nil)
  mergedEntry := MergedEntry.leavesOut
  manifest := Record.leavesOut (.cons leaves_optional <| .cons leaves_mandatory <|
    .cons leaves_textField <| .cons leaves_textField <| .cons leaves_listField <|
    .cons leaves_textField <| .cons leaves_optional <| .cons leaves_listField <|
    .cons leaves_listField <| .cons leaves_textField <| .cons leaves_listField <|
    .cons leaves_listField .nil)
  reference := Record.leavesOut (.cons leaves_mandatory <| .cons leaves_mandatory .nil)
  helm := Record.leavesOut (.cons leaves_mandatory <| .cons leaves_mandatory <|
    .cons leaves_mandatory <| .cons leaves_optional .nil)
  plainManifest := Record.leavesOut (.cons leaves_mandatory <| .cons leaves_textField .nil)
  entrypoint := Record.leavesOut (.cons leaves_textField <| .cons leaves_mandatory <|
    .cons leaves_mandatory <| .cons leaves_optional <| .cons leaves_textField .nil)
  dependency := Record.leavesOut (.cons leaves_mandatory <| .cons leaves_textField .nil)
  values h :=
    (Record.get?_encode HelmRelease.fields (f := valuesField) (by decide)
      (by simp [HelmRelease.fields, valuesField]) h).trans Option.map_id'
  valueDefinitions m hm := by
    refine (Record.get?_encode Manifest.fields (f := valueDefinitionsField) (by decide)
      (by simp [Manifest.fields, valueDefinitionsField]) m).trans ?_
    simp [valueDefinitionsField, omitIf, hm, Codec.map, Codec.raw]

/-! ## Documents -/

/-- JSON text, as far as it could be read, or a value that was never written. -/
def Document.IsJson (doc : Document) : Prop :=
  (∃ text, doc = Json.read text) ∨ ∃ v, doc = Document.ofValue v

theorem Document.IsJson.isTyped_root {doc : Document} (h : doc.IsJson) : doc.root.IsTyped := by
  rcases h with ⟨text, rfl⟩ | ⟨v, rfl⟩
  · exact Json.isTyped_root_read text
  · exact v.isTyped_toNode

/-- What is written comes back from every tree that keeps it, and has no two entries of one name in
any object. -/
structure Codec.Survives {α : Type} (c : Codec α) (x : α) : Prop where
  decode_eq : ∀ t : Value, t.IsTreeOf (c.encode x) → (Document.ofValue t).decode c.decode = .ok x
  hasDistinctNames : (c.encode x).HasDistinctNames

theorem Codec.Restores.survives {α : Type} {c : Codec α} {x : α} (h : c.Restores x) : c.Survives x where
  decode_eq t ht := by
    have hrun : (c.decode .tree t.toNode).run 0 = .ok (x, 0) := by
      rw [h.decode_eq ht]
      rfl
    exact Run.except_bind_eq_ok_iff.2 ⟨(x, 0), hrun, rfl⟩
  hasDistinctNames := h.hasDistinctNames

theorem Decoder.Ensures.of_decode {α : Type} {d : Decoder α} {P : α → Prop} (h : d.Ensures P)
    {doc : Document} (hroot : doc.root.IsTyped) {x : α} (hx : doc.decode d = .ok x) : P x := by
  obtain ⟨⟨y, k⟩, hrun, hending⟩ := Run.except_bind_eq_ok_iff.1 hx
  have hy := h _ doc.root hroot 0 y k hrun
  dsimp only at hending
  split at hending
  · exact Except.ok.inj hending ▸ hy
  · cases hending

theorem read_documents_survive_writing {doc : Document} (hdoc : doc.IsJson) :
    (∀ x, doc.decode Catalog.codec.decode = .ok x → Catalog.codec.Survives x) ∧
    (∀ x, doc.decode VersionIndex.codec.decode = .ok x → VersionIndex.codec.Survives x) ∧
    (∀ x, doc.decode Manifest.codec.decode = .ok x → Manifest.codec.Survives x) ∧
    (∀ x, doc.decode MergedCatalog.codec.decode = .ok x → MergedCatalog.codec.Survives x) ∧
    WrittenForm := by
  refine ⟨fun x _ => ?_, fun x _ => ?_, fun x hx => ?_, fun x _ => ?_, writtenForm⟩
  · exact ((Catalog.restores x).codec .strict).survives
  · exact ((VersionIndex.restores x).codec .strict).survives
  · have hreadable := Manifest.ensures_isReadable.of_decode hdoc.isTyped_root hx
    exact ((Manifest.restores hreadable).codec .strict).survives
  · exact ((MergedCatalog.restores x).codec .strict).survives

/-- Null among raw values is kept, and a list may stand for a record. -/
def Manifest.sampleText : List Char :=
  "\x7b\"name\": \"a\", \"helm\": [\"u\", \"c\", \"v1\", \x7b\"b\": null, \"a\": [1, 2.5]\x7d]\x7d".toList

def Manifest.sample : Manifest :=
  { name := "a"
    helm := some { repositoryUrl := "u", chartName := "c", chartVersion := "v1",
                   values := some (.object [("a", .list [.int 1, .float ⟨false, 5629499534213120, -51⟩]),
                     ("b", .null)]) } }

theorem sample_survives_writing :
    (Json.read Manifest.sampleText).decode Manifest.codec.decode = .ok Manifest.sample ∧
      Manifest.codec.Survives Manifest.sample :=
  have hdecode : (Json.read Manifest.sampleText).decode Manifest.codec.decode = .ok Manifest.sample := by
    decide +kernel
  ⟨hdecode, (read_documents_survive_writing (.inl ⟨Manifest.sampleText, rfl⟩)).2.2.1 _ hdecode⟩

end ClusterPackages
