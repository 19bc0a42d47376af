import ClusterPackages.ApiServer
import ClusterPackages.Document.MergePatch
import ClusterPackages.Proofs.Writes

/-! The patch that changes a desired version. A merge patch that is one row of keys with a text at its end
puts the text there and takes nothing away: whatever stands elsewhere in a document is kept, and each
object on the way keeps its keys. So a server that applies the patch to the written form of an object
stores what a store in memory writes. -/

namespace ClusterPackages

namespace Value

/-! ## Rows of keys -/

/-- What stands at the end of a row of keys, if each leads on. -/
def at? : Value → List String → Option Value
  | v, [] => some v
  | v, k :: ks => (v.get? k).bind fun w => w.at? ks

theorem at?_append (v : Value) (before behind : List String) :
    v.at? (before ++ behind) = (v.at? before).bind fun w => w.at? behind := by
  induction before generalizing v with
  | nil => rfl
  | cons k before ih => simp only [List.cons_append, at?, ih, Option.bind_assoc]

/-- The patch that puts a text at the end of a row of keys. -/
def textAt (s : String) : List String → Value
  | [] => .text s
  | k :: ks => .object [(k, textAt s ks)]

theorem textAt_ne_null (s : String) (ks : List String) : textAt s ks ≠ .null := by
  cases ks <;> simp [textAt]

theorem get?_eq_lookup (v : Value) (key : String) : v.get? key = v.entriesOf.lookup key := by
  cases v <;> rfl

/-! ## One entry -/

variable {es : List (String × Value)} {k key : String}

theorem lookup_cons (k : String) (v : Value) (es : List (String × Value)) :
    List.lookup key ((k, v) :: es) = if key = k then some v else List.lookup key es :=
  TextMap.get?_cons key k v es

theorem lookup_alter (f : Option Value → Value) :
    (alter k (fun w => some (f w)) es).lookup key =
      if key = k then some (f (es.lookup k)) else es.lookup key := by
  induction es with
  | nil => simp only [alter, lookup_cons, List.lookup_nil]
  | cons e es ih =>
    obtain ⟨j, v⟩ := e
    by_cases hj : j = k
    · subst hj
      simp only [alter, if_true, lookup_cons]
      split_ifs <;> rfl
    · simp only [alter, if_neg hj, lookup_cons, ih, if_neg (Ne.symm hj)]
      split_ifs with h₁ h₂
      · exact absurd (h₁.symm.trans h₂) hj
      all_goals rfl

/-- An entry that is changed stays in its place, and a new one comes last. -/
theorem keys_alter (f : Option Value → Value) :
    (alter k (fun w => some (f w)) es).map Prod.fst =
      if k ∈ es.map Prod.fst then es.map Prod.fst else es.map Prod.fst ++ [k] := by
  induction es with
  | nil => rfl
  | cons e es ih =>
    obtain ⟨j, v⟩ := e
    by_cases hj : j = k
    · simp [alter, hj]
    · simp only [alter, if_neg hj, List.map_cons, ih, List.mem_cons, Ne.symm hj, false_or]
      split_ifs <;> rfl

/-! ## The whole row -/

theorem mergePatch_textAt_cons (target : Value) (s : String) (k : String) (ks : List String) :
    target.mergePatch (textAt s (k :: ks)) =
      .object (alter k (fun w => some ((w.getD .null).mergePatch (textAt s ks))) target.entriesOf) := by
  rw [textAt, mergePatch, patchEntries, patchEntries]
  exact textAt_ne_null s ks

theorem get?_mergePatch_textAt_cons (target : Value) (s : String) (k : String) (ks : List String)
    (key : String) :
    (target.mergePatch (textAt s (k :: ks))).get? key =
      if key = k then some (((target.get? k).getD .null).mergePatch (textAt s ks))
      else target.get? key := by
  rw [mergePatch_textAt_cons, get?_eq_lookup, get?_eq_lookup, get?_eq_lookup, entriesOf, lookup_alter]

theorem at?_mergePatch_textAt (target : Value) (s : String) (ks : List String) :
    (target.mergePatch (textAt s ks)).at? ks = some (.text s) := by
  induction ks generalizing target with
  | nil => rw [textAt, mergePatch, at?]
  | cons k ks ih => rw [at?, get?_mergePatch_textAt_cons, if_pos rfl, Option.bind_some, ih]

/-- What stands neither on the way nor beyond its end is kept. -/
theorem at?_mergePatch_textAt_of_apart (target : Value) (s : String) {ks path : List String}
    (notBefore : ¬ path <+: ks) (notBehind : ¬ ks <+: path) :
    (target.mergePatch (textAt s ks)).at? path = target.at? path := by
  induction ks generalizing target path with
  | nil => exact absurd List.nil_prefix notBehind
  | cons k ks ih =>
    cases path with
    | nil => exact absurd List.nil_prefix notBefore
    | cons j path =>
      rw [at?, at?, get?_mergePatch_textAt_cons]
      split_ifs with hj
      · subst hj
        rw [List.cons_prefix_cons, not_and] at notBefore notBehind
        rw [Option.bind_some, ih _ (notBefore rfl) (notBehind rfl)]
        cases htarget : target.get? j with
        | some w => rfl
        | none =>
          -- a path that is no front of the row is not empty, and nothing has no entries
          cases path with
          | nil => exact absurd List.nil_prefix (notBefore rfl)
          | cons i path => rfl
      · rfl

/-- So nothing is gone but what stood beyond the end, if something did. -/
theorem isSome_at?_mergePatch_textAt {target : Value} {ks path : List String}
    (present : (target.at? path).isSome = true) (notBeyond : ks <+: path → path = ks) (s : String) :
    ((target.mergePatch (textAt s ks)).at? path).isSome = true := by
  by_cases before : path <+: ks
  · obtain ⟨behind, rfl⟩ := before
    have hend := at?_mergePatch_textAt target s (path ++ behind)
    rw [at?_append] at hend
    obtain ⟨w, hw, -⟩ := Option.bind_eq_some_iff.1 hend
    rw [hw, Option.isSome_some]
  · have notBehind : ¬ ks <+: path := fun h => before (notBeyond h ▸ List.prefix_rfl)
    rwa [at?_mergePatch_textAt_of_apart target s before notBehind]

/-- Each object on the way keeps its keys, in their order. -/
theorem keys_mergePatch_textAt (target : Value) (s : String) (before : List String) (k : String)
    (behind : List String) {es : List (String × Value)} (found : target.at? before = some (.object es)) :
    ∃ es', (target.mergePatch (textAt s (before ++ k :: behind))).at? before = some (.object es') ∧
      es'.map Prod.fst = if k ∈ es.map Prod.fst then es.map Prod.fst else es.map Prod.fst ++ [k] := by
  induction before generalizing target with
  | nil =>
    obtain rfl : target = .object es := Option.some.inj found
    rw [List.nil_append, mergePatch_textAt_cons, at?, entriesOf]
    exact ⟨_, rfl, keys_alter _⟩
  | cons j before ih =>
    obtain ⟨w, hw, hfound⟩ := Option.bind_eq_some_iff.1 found
    rw [List.cons_append, at?, get?_mergePatch_textAt_cons, if_pos rfl, hw]
    exact ih w hfound

end Value

/-! ## Desired versions -/

namespace ApiServer

/-- Where an object says which version it wants. -/
def versionPath : List String := ["spec", "packageInfo", "version"]

theorem versionPatch_eq (version : String) : versionPatch version = Value.textAt version versionPath := rfl

end ApiServer

open ApiServer

/-! ## Objects -/

theorem PackageInfo.mergePatch_encode (i : PackageInfo) (version : String) :
    (codec.encode i).mergePatch (Value.textAt version ["version"]) = codec.encode { i with version } := by
  rw [Value.mergePatch_textAt_cons, Value.textAt]
  simp only [codec, Codec.record, Record.encode, fields, Value.entriesOf, List.filterMap_cons,
    Field.mandatory, Field.always, Option.map_some, Value.alter, Value.mergePatch]
  rfl

theorem PackageSpec.mergePatch_encode (x : PackageSpec) (version : String) :
    (codec.encode x).mergePatch (Value.textAt version ["packageInfo", "version"]) =
      codec.encode { x with packageInfo := { x.packageInfo with version } } := by
  rw [Value.mergePatch_textAt_cons]
  simp only [codec, Codec.record, Record.encode, fields, Value.entriesOf, List.filterMap_cons,
    Field.mandatory, Option.map_some, Value.alter, if_true, Option.getD_some,
    PackageInfo.mergePatch_encode]
  rfl

/-- What the patch makes of the written form of an object is the written form of the object with the
version. -/
theorem InstalledPackage.mergePatch_encode (p : InstalledPackage) (version : String) :
    p.encode.mergePatch (versionPatch version) = (p.setDesiredVersion version).encode := by
  rw [versionPatch_eq, versionPath, Value.mergePatch_textAt_cons]
  simp only [encode, codec, objectCodec, ResourceObject.codec, Record.encode, ResourceObject.fields,
    Value.entriesOf, List.filterMap_cons, Field.mandatory, Option.map_some, Value.alter, if_true,
    Option.getD_some, String.reduceEq, if_false, PackageSpec.mergePatch_encode]
  rfl

/-- The request for an update carries the patch, and a store in memory writes what the patch makes of
the object that is stored, unless it installs updates at once. Whatever document the patch is applied to,
it puts the version in its place, keeps what stands elsewhere and deletes nothing but what stood below an
older version, and each object on the way keeps its keys. -/
theorem patch_writes_version_only (version : String) :
    (∀ p request, (ApiServer.updateVersion p version).request = some request →
      request.contentType = some "application/merge-patch+json" ∧
        request.body = some (versionPatch version)) ∧
    (∀ p : InstalledPackage,
      p.encode.mergePatch (versionPatch version) = (p.setDesiredVersion version).encode ∧
      p.setDesiredVersion version =
        { p with spec := { p.spec with packageInfo := { p.spec.packageInfo with version } } }) ∧
    (∀ (store : PackageStore) p q, store.stored? p = some q → p.name ∉ store.refusing →
      ∃ r, store.updateVersion p version = (.ok r, store.put r) ∧
        (store.converges = false → r.encode = q.encode.mergePatch (versionPatch version))) ∧
    ∀ doc : Value,
      let patched := doc.mergePatch (versionPatch version)
      patched.at? versionPath = some (.text version) ∧
      (∀ path, ¬ path <+: versionPath → ¬ versionPath <+: path → patched.at? path = doc.at? path) ∧
      (∀ path, (doc.at? path).isSome = true → (versionPath <+: path → path = versionPath) →
        (patched.at? path).isSome = true) ∧
      ∀ before k behind es, versionPath = before ++ k :: behind →
        doc.at? before = some (.object es) →
        ∃ es', patched.at? before = some (.object es') ∧
          es'.map Prod.fst = if k ∈ es.map Prod.fst then es.map Prod.fst else es.map Prod.fst ++ [k] := by
  refine ⟨fun p request hrequest => ?_, fun p => ⟨p.mergePatch_encode version, rfl⟩,
    fun store p q stored taken => ?_, fun doc => ⟨?_, fun path notBefore notBehind => ?_,
      fun path present notBeyond => ?_, fun before k behind es hpath found => ?_⟩⟩
  · unfold ApiServer.updateVersion patchRequest? at hrequest
    split_ifs at hrequest
    obtain ⟨uri, -, rfl⟩ := Option.map_eq_some_iff.1 hrequest
    exact ⟨rfl, rfl⟩
  · refine ⟨PackageStore.moved store.converges version q, ?_, fun plain => ?_⟩
    · have hnone := (store.refusal?_eq_none_iff ⟨p, version⟩).2 ⟨taken, q, stored⟩
      rw [PackageStore.updateVersion_of_taken (u := ⟨p, version⟩) hnone stored, PackageStore.write, stored]
    · rw [plain, InstalledPackage.mergePatch_encode]
      rfl
  · exact Value.at?_mergePatch_textAt doc version versionPath
  · exact Value.at?_mergePatch_textAt_of_apart doc version notBefore notBehind
  · exact Value.isSome_at?_mergePatch_textAt present notBeyond version
  · rw [versionPatch_eq, hpath]
    exact Value.keys_mergePatch_textAt doc version before k behind found

/-- A null and what no object of this kind has are kept. -/
example :
    (Value.object
      [("spec", .object [("extra", .null), ("packageInfo", .object [("version", .text "v1"), ("x", .int 1)])]),
       ("status", .list [])]).mergePatch (versionPatch "") =
    .object
      [("spec", .object [("extra", .null), ("packageInfo", .object [("version", .text ""), ("x", .int 1)])]),
       ("status", .list [])] := by
  decide

end ClusterPackages
