import ClusterPackages.Proofs.BelowBase
import ClusterPackages.Proofs.PercentText
import ClusterPackages.Proofs.Provenance

/-! Addresses of the documents of a repository. What stands below the base is one segment for each part of
a document's place, from which the parts are read back; so no two documents share an address, whatever
packages and versions are called, and no name adds a separator of its own. Slashes at the end of a
configured address make no difference. -/

namespace ClusterPackages.RepoClient

open Text

/-- What a client asks a repository for. -/
inductive Page
  | catalog
  | versionIndex (name : String)
  | versionlessManifest (name : String)
  | manifest (name version : String)

namespace Page

def segments : Page → List String
  | catalog => ["index.yaml"]
  | versionIndex name => [name, "versions.yaml"]
  | versionlessManifest name => [name, "package.yaml"]
  | manifest name version => [name, version, "package.yaml"]

def url (c : RepoClient) : Page → String
  | catalog => c.catalogUrl
  | versionIndex name => c.versionIndexUrl name
  | versionlessManifest name => c.versionlessManifestUrl name
  | manifest name version => c.manifestUrl name version

theorem url_eq (c : RepoClient) (p : Page) : p.url c = c.urlOf p.segments := by cases p <;> rfl

theorem segments_ne_nil (p : Page) : p.segments ≠ [] := by cases p <;> exact List.cons_ne_nil _ _

theorem segments_injective {p q : Page} (h : p.segments = q.segments) : p = q := by
  cases p <;> cases q <;> simp_all [segments]

end Page

/-! ## Segments -/

/-- The text that a segment stands for. -/
def readSegment (segment : List Char) : Except EncodingFault String :=
  (decodeUtf8 (percentDecode segment)).map String.ofList

theorem readSegment_percentSegment (s : String) : readSegment (percentSegment s.toList) = .ok s := by
  rw [readSegment, percentDecode_percentSegment, decodeUtf8_encode]
  exact congrArg Except.ok String.ofList_toList

/-- What an address has behind its base and a slash. -/
def placeOf (segments : List String) : List Char :=
  join ['/'] (segments.map fun s => percentSegment s.toList)

theorem placeOf_cons_cons (s next : String) (segments : List String) :
    placeOf (s :: next :: segments) = percentSegment s.toList ++ '/' :: placeOf (next :: segments) :=
  join_cons_cons _ _ _ _

theorem toList_urlOf (c : RepoClient) {segments : List String} (nonempty : segments ≠ []) :
    (c.urlOf segments).toList = c.baseUrl.toList ++ '/' :: placeOf segments := by
  have hplace : segments.flatMap (fun s => '/' :: percentSegment s.toList) = '/' :: placeOf segments := by
    induction segments with
    | nil => exact absurd rfl nonempty
    | cons s rest ih =>
      cases rest with
      | nil => simp [placeOf, join]
      | cons next rest =>
        rw [List.flatMap_cons, ih (List.cons_ne_nil _ _), placeOf_cons_cons, List.cons_append]
  rw [urlOf, String.toList_ofList, hplace]

theorem notMem_percentSegment {d : Char} (hd : isSegmentChar d = false) (cs : List Char) :
    d ∉ percentSegment cs :=
  notMem_of_forall (isEscaped_percentSegment cs).forall_isSegmentChar hd

theorem splitOn_placeOf {segments : List String} (nonempty : segments ≠ []) :
    splitOn '/' (placeOf segments) = segments.map fun s => percentSegment s.toList := by
  refine splitOn_join (by simpa using nonempty) fun part hpart => ?_
  obtain ⟨s, -, rfl⟩ := List.mem_map.1 hpart
  exact notMem_percentSegment (by decide) s.toList

/-- A place is read back segment by segment. -/
theorem map_readSegment_placeOf {segments : List String} (nonempty : segments ≠ []) :
    (splitOn '/' (placeOf segments)).map readSegment = segments.map .ok := by
  rw [splitOn_placeOf nonempty, List.map_map]
  exact List.map_congr_left fun s _ => readSegment_percentSegment s

theorem placeOf_injective {segments segments' : List String} (hne : segments ≠ []) (hne' : segments' ≠ [])
    (h : placeOf segments = placeOf segments') : segments = segments' := by
  have hread := map_readSegment_placeOf hne
  rw [h, map_readSegment_placeOf hne'] at hread
  exact (List.map_injective_iff.2 (fun _ _ => Except.ok.inj) hread).symm

/-! ## Addresses -/

theorem Page.url_injective (c : RepoClient) {p q : Page} (h : p.url c = q.url c) : p = q := by
  have hurl := congrArg String.toList h
  rw [url_eq, url_eq, toList_urlOf c p.segments_ne_nil, toList_urlOf c q.segments_ne_nil] at hurl
  obtain ⟨-, hplace⟩ := List.cons.inj (List.append_cancel_left hurl)
  exact segments_injective (placeOf_injective p.segments_ne_nil q.segments_ne_nil hplace)

theorem trimSlashes_append_replicate (cs : List Char) (n : ℕ) :
    trimSlashes (cs ++ List.replicate n '/') = trimSlashes cs := by
  have hslashes : ∀ c ∈ List.replicate n '/', (c == '/') = true :=
    fun c hc => beq_iff_eq.2 (List.eq_of_mem_replicate hc)
  rw [trimSlashes, List.reverse_append, List.reverse_replicate, List.dropWhile_append_of_pos hslashes,
    trimSlashes]

/-- A client of an accepted address: each document has an address of its own, which says which it is,
and slashes at the end of the configured address change nothing. Addresses are compared as they are
written. A request removes dot segments first, so that those of a package called by one or two points
may go to the place of another document (`RequestPaths`). -/
theorem urls_tell_documents {url : String} {auth : Authenticator} {age : Duration} {c : RepoClient}
    (h : create url auth age = .ok c) :
    (∀ p q : Page, p.url c = q.url c → p = q) ∧
    (∃ n, url.toList = c.baseUrl.toList ++ List.replicate n '/') ∧
    (∀ p : Page, ∃ rest, (p.url c).toList = c.baseUrl.toList ++ '/' :: rest ∧
      (splitOn '/' rest).map readSegment = p.segments.map .ok ∧
      ∀ segment ∈ splitOn '/' rest, IsEscaped segment ∧
        ∀ d ∈ ['/', '?', '#', '+'], d ∉ segment) ∧
    ∀ (n : ℕ) (url' : String), url'.toList = url.toList ++ List.replicate n '/' →
      (∀ auth' age' c', create url' auth' age' = .ok c' → ∀ p : Page, p.url c' = p.url c) ∧
      ((∀ d, url.toList.getLast? = some d → 0x20 < d.toNat) → create url' auth age = .ok c) := by
  have hseparators : ['/', '?', '#', '+'].all (fun d => !isSegmentChar d) = true := by decide
  refine ⟨fun p q => Page.url_injective c, ?_, fun p => ?_,
    fun n url' hurl' => ⟨?_, fun hlast => ?_⟩⟩
  · obtain ⟨-, -, -, rfl⟩ := create_eq_ok h
    rw [String.toList_ofList]
    exact eq_trimSlashes_append url.toList
  · refine ⟨placeOf p.segments, ?_, map_readSegment_placeOf p.segments_ne_nil, ?_⟩
    · rw [Page.url_eq, toList_urlOf c p.segments_ne_nil]
    · rw [splitOn_placeOf p.segments_ne_nil]
      exact List.forall_mem_map.2 fun s _ => ⟨isEscaped_percentSegment _,
        fun d hd => notMem_percentSegment (by simpa using List.all_eq_true.1 hseparators d hd) _⟩
  · intro auth' age' c' h' p
    obtain ⟨u, -, -, rfl⟩ := create_eq_ok h
    obtain ⟨u', -, -, rfl⟩ := create_eq_ok h'
    rw [Page.url_eq, Page.url_eq, urlOf, urlOf, hurl', trimSlashes_append_replicate]
  · obtain ⟨u, hu, hweb, rfl⟩ := create_eq_ok h
    obtain ⟨m, hm⟩ := eq_trimSlashes_append url.toList
    obtain ⟨u', hu', hweb'⟩ :=
      Url.parse_slashes hm hu hweb (fun d hd => by simpa [Url.isOuter] using hlast d hd) hurl'
    simp only [create, hu', hweb', if_true, hurl', trimSlashes_append_replicate]

theorem urls_tell_documents_http :
    ∃ c, create "http://h/" .anonymous (.ofSeconds 300) = .ok c ∧
      (Page.manifest "a/b" "1+2").url c = "http://h/a%2Fb/1%2B2/package.yaml" ∧
      (Page.manifest "a/b" "1+2").url c ≠ (Page.manifest "a" "b/1+2").url c ∧
      create "http://h///" .anonymous (.ofSeconds 300) = .ok c := by
  have hc : create "http://h/" .anonymous (.ofSeconds 300) =
      .ok { baseUrl := "http://h", auth := .anonymous, maxCacheAge := .ofSeconds 300 } := rfl
  obtain ⟨hdistinct, -, -, hslashes⟩ := urls_tell_documents hc
  refine ⟨_, hc, by decide +kernel, fun heq => ?_, ?_⟩
  · exact absurd (Page.manifest.inj (hdistinct _ _ heq)).1 (by decide)
  · have hlast : ∀ d, some '/' = some d → 0x20 < d.toNat := by
      rintro d ⟨⟩
      decide
    exact (hslashes 2 "http://h///" (by decide)).2 hlast

end ClusterPackages.RepoClient
