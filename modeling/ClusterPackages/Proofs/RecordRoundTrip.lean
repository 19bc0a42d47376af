import ClusterPackages.Catalog
import ClusterPackages.Proofs.DecodedValues
import ClusterPackages.Proofs.ReadingBack

/-! The records of catalogs, version indexes and manifests: each puts back its own parts, a merged
entry also where its fields stand beside the names of its repositories. A manifest does so if it is
one that can be read: its numbers fit, its raw values are sorted, and none that may be absent is
null. -/

namespace ClusterPackages

open ClusterPackages.Field ClusterPackages.Codec

/-! ## The records of catalogs -/

theorem VersionEntry.restores (x : VersionEntry) : Record.Restores VersionEntry.fields x {} where
  nodup_names := by decide
  parts := ⟨_, .cons (restores_mandatory (restores_text _)) .nil, by simp, rfl⟩

theorem VersionIndex.restores (x : VersionIndex) : Record.Restores VersionIndex.fields x {} where
  nodup_names := by decide
  parts := ⟨_,
    .cons (restores_always (restores_list fun v _ => (VersionEntry.restores v).codec .strict)) <|
    .cons (restores_always (restores_text _)) .nil, by simp, rfl⟩

theorem CatalogEntry.restores (x : CatalogEntry) : Record.Restores CatalogEntry.fields x {} where
  nodup_names := by decide
  parts := ⟨_,
    .cons (restores_mandatory (restores_text _)) <|
    .cons (restores_textField rfl) <|
    .cons (restores_textField rfl) <|
    .cons (restores_textField rfl) <|
    .cons (restores_optional (fun s _ => ⟨restores_scope s, Value.noConfusion⟩) rfl) .nil,
    by simp, rfl⟩

theorem Catalog.restores (x : Catalog) : Record.Restores Catalog.fields x {} where
  nodup_names := by decide
  parts := ⟨_,
    .cons (restores_always (restores_list fun e _ => (CatalogEntry.restores e).codec .strict)) .nil,
    by simp, rfl⟩

/-! ## The records of manifests -/

theorem PackageReference.restores (x : PackageReference) :
    Record.Restores PackageReference.fields x {} where
  nodup_names := by decide
  parts := ⟨_,
    .cons (restores_mandatory (restores_text _)) <|
    .cons (restores_mandatory (restores_text _)) .nil, by simp, rfl⟩

theorem PlainManifest.restores (x : PlainManifest) : Record.Restores PlainManifest.fields x {} where
  nodup_names := by decide
  parts := ⟨_,
    .cons (restores_mandatory (restores_text _)) <|
    .cons (restores_textField rfl) .nil, by simp, rfl⟩

theorem Dependency.restores (x : Dependency) : Record.Restores Dependency.fields x {} where
  nodup_names := by decide
  parts := ⟨_,
    .cons (restores_mandatory (restores_text _)) <|
    .cons (restores_textField rfl) .nil, by simp, rfl⟩

/-- Its raw values can be told from none at all. -/
def HelmRelease.IsReadable (h : HelmRelease) : Prop := ∀ v ∈ h.values, v ≠ .null ∧ v.IsSorted

theorem HelmRelease.restores {x : HelmRelease} (h : x.IsReadable) :
    Record.Restores HelmRelease.fields x {} where
  nodup_names := by decide
  parts := ⟨_,
    .cons (restores_mandatory (restores_text _)) <|
    .cons (restores_mandatory (restores_text _)) <|
    .cons (restores_mandatory (restores_text _)) <|
    .cons (restores_optional (fun v hv => ⟨restores_raw (h v hv).2, (h v hv).1⟩) rfl) .nil,
    by simp, rfl⟩

def IsInt32 (n : Int) : Prop := -2147483648 ≤ n ∧ n ≤ 2147483647

def Entrypoint.IsReadable (e : Entrypoint) : Prop := IsInt32 e.port ∧ ∀ p ∈ e.localPort, IsInt32 p

theorem Entrypoint.restores {x : Entrypoint} (h : x.IsReadable) :
    Record.Restores Entrypoint.fields x {} where
  nodup_names := by decide
  parts := ⟨_,
    .cons (restores_textField rfl) <|
    .cons (restores_mandatory (restores_text _)) <|
    .cons (restores_mandatory (restores_int32 h.1)) <|
    .cons (restores_optional (fun p hp => ⟨restores_int32 (h.2 p hp), Value.noConfusion⟩) rfl) <|
    .cons (restores_textField rfl) .nil, by simp, rfl⟩

structure Manifest.IsReadable (m : Manifest) : Prop where
  helm : ∀ h ∈ m.helm, h.IsReadable
  entrypoints : ∀ e ∈ m.entrypoints, e.IsReadable
  valueDefinitions : (Value.object m.valueDefinitions).IsSorted

theorem Manifest.restores {x : Manifest} (h : x.IsReadable) :
    Record.Restores Manifest.fields x {} where
  nodup_names := by decide
  parts := ⟨_,
    .cons (restores_optional (fun s _ => ⟨restores_scope s, Value.noConfusion⟩) rfl) <|
    .cons (restores_mandatory (restores_text _)) <|
    .cons (restores_textField rfl) <|
    .cons (restores_textField rfl) <|
    .cons (restores_listField (fun r _ => (PackageReference.restores r).codec .strict) rfl) <|
    .cons (restores_textField rfl) <|
    .cons (restores_optional (fun r hr =>
      ⟨(HelmRelease.restores (h.helm r hr)).codec .strict, Value.noConfusion⟩) rfl) <|
    .cons (restores_listField (fun p _ => (PlainManifest.restores p).codec .strict) rfl) <|
    .cons (restores_omitIf (restores_map_raw h.valueDefinitions)
      fun he => (List.isEmpty_iff.1 he).symm ▸ rfl) <|
    .cons (restores_textField rfl) <|
    .cons (restores_listField
      (fun e he => (Entrypoint.restores (h.entrypoints e he)).codec .strict) rfl) <|
    .cons (restores_listField (fun d _ => (Dependency.restores d).codec .strict) rfl) .nil,
    by simp, rfl⟩

/-! ## What is read is readable -/

/-- A field that a property does not look at. -/
theorem keeps_of_set {σ α : Type} {f : Field σ} {d : Decoder α} {set : α → σ → σ} {P : σ → Prop}
    (hread : ∀ ctx n y, f.read ctx n y = d ctx n >>= fun a => pure (set a y))
    (hset : ∀ a y, P y → P (set a y)) : f.Keeps P :=
  keeps_of_read_eq hread d.ensures_trivial fun a y _ hy => hset a y hy

theorem HelmRelease.ensures_isReadable : HelmRelease.codec.decode.Ensures IsReadable := by
  refine Record.ensures_decode .strict ?_ (by simp [IsReadable])
  simp only [fields, List.forall_mem_cons]
  exact ⟨keeps_of_set (fun _ _ _ => rfl) fun _ _ h => h, keeps_of_set (fun _ _ _ => rfl) fun _ _ h => h,
    keeps_of_set (fun _ _ _ => rfl) fun _ _ h => h,
    keeps_of_read_eq (fun _ _ _ => rfl) Decoder.ensures_optional_raw fun _ _ h _ => h, by simp⟩

theorem ensures_int32 : Codec.int32.decode.Ensures IsInt32 := Decoder.ensures_int _ _

theorem Entrypoint.ensures_isReadable : Entrypoint.codec.decode.Ensures IsReadable := by
  refine Record.ensures_decode .strict ?_ (by simp [IsReadable, IsInt32])
  simp only [fields, List.forall_mem_cons]
  exact ⟨keeps_of_set (fun _ _ _ => rfl) fun _ _ h => h, keeps_of_set (fun _ _ _ => rfl) fun _ _ h => h,
    keeps_of_read_eq (fun _ _ _ => rfl) ensures_int32 fun _ _ hn h => ⟨hn, h.2⟩,
    keeps_of_read_eq (fun _ _ _ => rfl)
      (Decoder.ensures_option fun ctx n hn _ => ensures_int32 ctx n hn) fun _ _ hp h => ⟨h.1, hp⟩,
    keeps_of_set (fun _ _ _ => rfl) fun _ _ h => h, by simp⟩

theorem Manifest.ensures_isReadable : Manifest.codec.decode.Ensures IsReadable := by
  refine Record.ensures_decode .strict ?_ ⟨by simp, by simp, ?_⟩
  · simp only [fields, List.forall_mem_cons]
    refine ⟨?scope, ?name, ?shortDescription, ?longDescription, ?references, ?iconUrl, ?helm, ?manifests,
      ?valueDefinitions, ?defaultNamespace, ?entrypoints, ?dependencies, by simp⟩
    case helm =>
      exact keeps_of_read_eq (fun _ _ _ => rfl)
        (Decoder.ensures_option fun ctx n hn _ => HelmRelease.ensures_isReadable ctx n hn)
        fun _ _ hh h => ⟨hh, h.entrypoints, h.valueDefinitions⟩
    case valueDefinitions =>
      exact keeps_of_read_eq (fun _ _ _ => rfl) Decoder.ensures_map_raw
        fun _ _ hv h => ⟨h.helm, h.entrypoints, hv⟩
    case entrypoints =>
      exact keeps_of_read_eq (fun _ _ _ => rfl) (Decoder.ensures_list Entrypoint.ensures_isReadable)
        fun _ _ he h => ⟨h.helm, he, h.valueDefinitions⟩
    all_goals
      exact keeps_of_set (fun _ _ _ => rfl) fun _ _ h => ⟨h.helm, h.entrypoints, h.valueDefinitions⟩
  · rw [Value.IsSorted]
    exact ⟨TextMap.isSorted_nil, trivial⟩

/-! ## Merged entries -/

namespace MergedEntry

theorem encode_eq (x : MergedEntry) : encode x =
    .object (Record.written CatalogEntry.fields x.entry ++ Record.written [reposField] x) := rfl

theorem written_reposField (x : MergedEntry) : Record.written [reposField] x =
    if x.repos.isEmpty then [] else [(reposField.name, (Codec.list .text).encode x.repos)] := by
  cases h : x.repos <;> simp [Record.written, reposField, omitIf, h]

theorem nodup_names :
    (CatalogEntry.fields.map Field.name ++ [reposField].map Field.name).Nodup := by decide

theorem nodup_keys (x : MergedEntry) :
    ((Record.written CatalogEntry.fields x.entry ++ Record.written [reposField] x).map Prod.fst).Nodup := by
  rw [List.map_append]
  exact nodup_names.sublist
    ((Record.keys_written_sublist _ x.entry).append (Record.keys_written_sublist _ x))

theorem key_ne_repos {x : CatalogEntry} {e : String × Value}
    (he : e ∈ Record.written CatalogEntry.fields x) : e.1 ≠ reposField.name := by
  have hmem := (Record.keys_written_sublist CatalogEntry.fields x).subset (List.mem_map_of_mem he)
  have hrepos : reposField.name ∉ CatalogEntry.fields.map Field.name := by decide
  exact fun heq => hrepos (heq ▸ hmem)

theorem eq_of_mem_written_reposField {x : MergedEntry} {e : String × Value}
    (he : e ∈ Record.written [reposField] x) :
    e = (reposField.name, (Codec.list .text).encode x.repos) := by
  rw [written_reposField] at he
  split_ifs at he
  · cases he
  · exact List.mem_singleton.1 he

theorem repos_eq_nil_of_not_mem {x : MergedEntry}
    (h : reposField.name ∉ (Record.written [reposField] x).map Prod.fst) : x.repos = [] := by
  rw [written_reposField] at h
  split_ifs at h with he
  · exact List.isEmpty_iff.1 he
  · simp at h

theorem readSides_toEntries {es : List (String × Value)} (hes : (es.map Prod.fst).Nodup)
    {repos : List String}
    (hrepos : ∀ e ∈ es, e.1 = reposField.name → Decoder.list Decoder.text .tree e.2.toNode = pure repos)
    (seen : Bool) (hseen : seen = true → reposField.name ∉ es.map Prod.fst) (s : Sides) :
    readSides .tree seen s (Value.toEntries es) =
      pure { repos := if reposField.name ∈ es.map Prod.fst then repos else s.repos,
             others := (Value.toEntries (es.filter (·.1 != reposField.name))).reverse ++ s.others } := by
  induction es generalizing seen s with
  | nil => simp [Value.toEntries, readSides]
  | cons e es ih =>
    obtain ⟨hnew, hes⟩ := List.nodup_cons.1 hes
    obtain ⟨he, hrest⟩ := List.forall_mem_cons.1 hrepos
    rw [Value.toEntries, readSides, Value.text_toNode, pure_bind]
    by_cases hkey : e.1 = reposField.name
    · have hunseen : seen = false := by
        cases seen with
        | false => rfl
        | true => exact absurd (by simp [hkey]) (hseen rfl)
      rw [hkey] at hnew
      rw [if_pos hkey, hunseen, if_neg Bool.false_ne_true, he hkey, pure_bind,
        ih hes hrest true fun _ => hnew]
      simp [hkey, hnew]
    · have hmem : reposField.name ∈ (e :: es).map Prod.fst ↔ reposField.name ∈ es.map Prod.fst :=
        List.mem_cons.trans (or_iff_right (Ne.symm hkey))
      rw [if_neg hkey, Value.settle_toNode, pure_bind, ih hes hrest seen fun h => hmem.not.1 (hseen h)]
      simp only [hmem]
      simp [hkey, Value.toEntries]

/-- What the two sides write is told apart again, in any order. -/
theorem fromEntries_eq (x : MergedEntry) {arrange : Value → Value} (harrange : ∀ v, (arrange v).IsTreeOf v)
    {ts : List (String × Value)}
    (hts : ts.Perm ((Record.written CatalogEntry.fields x.entry ++ Record.written [reposField] x).map
      fun e => (e.1, arrange e.2))) :
    fromEntries .tree (Value.toEntries ts) = pure x := by
  have hkeys : (ts.map Prod.fst).Perm
      ((Record.written CatalogEntry.fields x.entry ++ Record.written [reposField] x).map Prod.fst) := by
    have := hts.map Prod.fst
    rwa [List.map_map] at this
  have hrepos : ∀ e ∈ ts, e.1 = reposField.name →
      Decoder.list Decoder.text .tree e.2.toNode = pure x.repos := by
    intro e he hname
    obtain ⟨d, hd, rfl⟩ := List.mem_map.1 (hts.mem_iff.1 he)
    have hd := (List.mem_append.1 hd).resolve_left fun hd => key_ne_repos hd hname
    obtain rfl := eq_of_mem_written_reposField hd
    exact (restores_list fun s _ => restores_text s).decode_eq (harrange _)
  have hothers : (ts.filter (·.1 != reposField.name)).Perm
      ((Record.written CatalogEntry.fields x.entry).map fun e => (e.1, arrange e.2)) := by
    refine (hts.filter _).trans (.of_eq ?_)
    rw [List.map_append, List.filter_append, List.filter_eq_self.2, List.filter_eq_nil_iff.2,
      List.append_nil]
    · refine List.forall_mem_map.2 fun e he => ?_
      simp [eq_of_mem_written_reposField he]
    · refine List.forall_mem_map.2 fun e he => ?_
      simpa using key_ne_repos he
  have hentry := (CatalogEntry.restores x.entry).fromEntries_eq .strict harrange hothers
  rw [fromEntries, readSides_toEntries (hkeys.nodup_iff.2 (nodup_keys x)) hrepos false
    (fun h => nomatch h) {}, pure_bind]
  simp only [List.append_nil, List.reverse_reverse]
  change Record.fromEntries .strict CatalogEntry.fields {} .tree _ >>= _ = _
  rw [hentry, pure_bind]
  split_ifs with hmem
  · rfl
  · rw [hkeys.mem_iff, List.map_append, List.mem_append, not_or] at hmem
    rw [← repos_eq_nil_of_not_mem hmem.2]

theorem restores (x : MergedEntry) : MergedEntry.codec.Restores x where
  hasDistinctNames := by
    change (MergedEntry.encode x).HasDistinctNames
    rw [encode_eq, Value.HasDistinctNames]
    refine ⟨nodup_keys x, Value.entriesHaveDistinctNames_iff.2 (List.forall_mem_append.2 ⟨?_, ?_⟩)⟩
    · exact Value.entriesHaveDistinctNames_iff.1 (CatalogEntry.restores x.entry).entriesHaveDistinctNames
    · rw [written_reposField]
      split_ifs
      · simp
      · exact List.forall_mem_singleton.2 (restores_list fun s _ => restores_text s).hasDistinctNames
  decode_eq := by
    intro t ht
    obtain ⟨arrange, harrange, ts, rfl, hts⟩ := Value.IsTreeOf.exists_object ht (nodup_keys x)
    exact fromEntries_eq x harrange hts

end MergedEntry
theorem MergedCatalog.restores (x : MergedCatalog) : Record.Restores MergedCatalog.fields x {} where
  nodup_names := by decide
  parts := ⟨_, .cons (restores_mandatory (restores_list fun e _ => MergedEntry.restores e)) .nil,
    by simp, rfl⟩

end ClusterPackages
