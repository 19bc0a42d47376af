import ClusterPackages.Proofs.DocumentUrls
import ClusterPackages.Proofs.DotSegments

/-! Where requests go. The path of a request is the base's path with the segments of the document behind it.
Removing dot segments leaves it as it is unless the name or the version is itself one, which no
percent sign can hide; then the request leaves the place of its package, and with two points the
base. -/

namespace ClusterPackages

namespace Url

open Text

/-! ## Segments below a base -/

/-- The segments that a path has in front of what is asked for below it. -/
def below : List Char → List (List Char)
  | [] => []
  | _ :: path => (splitOn '/' (path.map unslash)).map (percentEncode keptInPath)

variable {tail more : List Char}

theorem unslash_eq_slash {c : Char} (hend : isInside c = false) (hmark : isMark c = false) :
    unslash c = '/' := by
  simp only [isMark, Bool.or_eq_false_iff, beq_eq_false_iff_ne] at hmark
  rcases eq_or_ne c '/' with rfl | hslash
  · decide
  · have hback : c = '\\' := by simpa [isInside, isEnd, hmark, hslash] using hend
    rw [unslash, if_pos hback]

theorem segmentsOf_cons {c : Char} {path : List Char} (hend : isInside c = false)
    (hmark : isMark c = false) : segmentsOf (c :: path) = below (c :: path) := by
  rw [segmentsOf, List.map_cons, unslash_eq_slash hend hmark]
  rfl

theorem segmentsOf_append (stops : StopsAt isInside tail) (plain : ∀ c ∈ tail, isMark c = false) :
    segmentsOf (tail ++ '/' :: more) =
      below tail ++ (splitOn '/' (more.map unslash)).map (percentEncode keptInPath) := by
  cases tail with
  | nil => rfl
  | cons c path =>
    have hslash : unslash '/' = '/' := by decide
    rw [List.cons_append, segmentsOf_cons (stops c rfl) (plain c List.mem_cons_self), below, below,
      List.map_append, List.map_cons, hslash, splitOn_cut, List.map_append]

theorem splitOn_slashes (n : ℕ) : splitOn '/' (List.replicate n '/') = List.replicate (n + 1) [] := by
  induction n with
  | zero => rfl
  | succ n ih => rw [List.replicate_succ, splitOn, if_pos rfl, ih, ← List.replicate_succ]

/-- Slashes at the end of a path leave empty segments there. -/
theorem segmentsOf_slashes (stops : StopsAt isInside tail) (plain : ∀ c ∈ tail, isMark c = false)
    (n : ℕ) : ∃ k, segmentsOf (tail ++ List.replicate n '/') = below tail ++ List.replicate k [] := by
  cases n with
  | zero =>
    rw [List.replicate_zero, List.append_nil]
    cases tail with
    | nil => exact ⟨1, rfl⟩
    | cons c path =>
      have hcons : segmentsOf (c :: path) = below (c :: path) :=
        segmentsOf_cons (stops c rfl) (plain c List.mem_cons_self)
      exact ⟨0, by rw [hcons, List.replicate_zero, List.append_nil]⟩
  | succ n =>
    refine ⟨n + 1, ?_⟩
    have hslashes : (List.replicate n '/').map unslash = List.replicate n '/' := by
      rw [List.map_replicate]
      rfl
    rw [List.replicate_succ, segmentsOf_append stops plain, hslashes, splitOn_slashes, List.map_replicate]
    rfl

/-! ## Blanks at the end of a path -/

theorem any_percentByte :
    ∀ n < 33, (percentByte n).any (fun d => !pointChars.contains d) = true := by decide

theorem not_isDot_of_isOuter {segment : List Char} {c : Char} (hc : c ∈ segment)
    (outer : isOuter c = true) : isDot (percentEncode keptInPath segment) = false := by
  have hbound : c.toNat ≤ 32 := by simpa [isOuter] using outer
  obtain ⟨d, hd, hnot⟩ := List.any_eq_true.1 (any_percentByte c.toNat (by omega))
  have hkept : keptInPath c = false := by
    have hgraphic : isGraphic c = false := by
      simp only [isGraphic, Bool.and_eq_false_iff, decide_eq_false_iff_not]
      omega
    simp [keptInPath, keptInFragment, hgraphic]
  have hencode : encodeChar c = [c.toNat] := by
    unfold encodeChar
    exact if_pos (by omega)
  refine not_isDot_of_mem (List.mem_flatMap.2 ⟨c, hc, ?_⟩) (by simpa using hnot)
  simpa [hkept, hencode] using hd

theorem map_unslash {cs : List Char} (h : '\\' ∉ cs) : cs.map unslash = cs := by
  refine (List.map_congr_left fun c hc => ?_).trans (List.map_id cs)
  rw [unslash, if_neg (ne_of_mem_of_not_mem hc h), id]

/-- The segments below a base are those of its path, but for blanks and slashes at its end. -/
theorem not_isDot_of_mem_below {path : List Char} (halike : EndsAlike path tail)
    (stops : StopsAt isInside tail) (plain : ∀ c ∈ tail, isMark c = false)
    (h : ∀ s ∈ segmentsOf path, isDot s = false) : ∀ s ∈ below tail, isDot s = false := by
  cases halike with
  | slashes _ n =>
    obtain ⟨k, hk⟩ := segmentsOf_slashes stops plain n
    rw [hk] at h
    exact fun s hs => h s (List.mem_append_left _ hs)
  | @blanks _ more outer =>
    have hnot {d : Char} (hd : isOuter d = false) : d ∉ more := notMem_of_forall outer hd
    cases path with
    | nil =>
      cases more with
      | nil => exact List.forall_mem_nil _
      | cons c more =>
        have hinside := isInside_of (by decide) (outer c List.mem_cons_self)
        rw [stops c rfl] at hinside
        cases hinside
    | cons c path =>
      obtain ⟨parts, last, hpath, happend⟩ :=
        exists_splitOn_append (hnot (d := '/') (by decide)) (path.map unslash)
      rw [segmentsOf_cons (stops c rfl) (plain c List.mem_cons_self), below, hpath] at h
      rw [List.cons_append, below, List.map_append, map_unslash (hnot (d := '\\') (by decide)), happend]
      rw [List.map_append, List.forall_mem_append] at h ⊢
      refine ⟨h.1, ?_⟩
      -- a blank that the base keeps is encoded, and no point is written so
      cases more with
      | nil => simpa using h.2
      | cons d more =>
        have hmem : d ∈ last ++ d :: more := List.mem_append_right _ List.mem_cons_self
        simpa using not_isDot_of_isOuter hmem (outer d List.mem_cons_self)

/-! ## Queries and fragments -/

/-- What follows a query or a fragment is no part of the path. -/
theorem ending_path_append {special : Bool} (marked : ¬ ∀ c ∈ tail, isMark c = false) :
    (ending special (tail ++ more)).1 = (ending special tail).1 := by
  rw [ending_path, ending_path, takeWhile_append_of_not_forall]
  simpa using marked

theorem EndsAlike.marks_iff {path : List Char} (h : EndsAlike path tail) :
    (∀ c ∈ path, isMark c = false) ↔ ∀ c ∈ tail, isMark c = false := by
  cases h with
  | slashes _ n =>
    have hslashes : ∀ c ∈ List.replicate n '/', isMark c = false :=
      fun c hc => List.eq_of_mem_replicate hc ▸ by decide
    rw [List.forall_mem_append, and_iff_left hslashes]
  | @blanks _ more outer =>
    have hmore : ∀ c ∈ more, isMark c = false :=
      not_isMark_of_forall outer (by decide) (by decide)
    rw [List.forall_mem_append, and_iff_left hmore]

theorem EndsAlike.ending_path {path : List Char} {special : Bool} (h : EndsAlike path tail)
    (marked : ¬ ∀ c ∈ tail, isMark c = false) : (ending special path).1 = (ending special tail).1 := by
  have hpath := mt h.marks_iff.1 marked
  cases h with
  | slashes _ n => exact ending_path_append marked
  | blanks _ outer => exact (ending_path_append hpath).symm

/-- An address without query and fragment has a path alone. -/
theorem withTail_of_plain (u : Url) (plain : ∀ c ∈ tail, isMark c = false) :
    u.withTail tail =
      { u with path := .segments (removeDotSegments (segmentsOf tail)), query := none, fragment := none } := by
  rw [withTail, (ending_eq_none_iff true tail).2 plain, ending_path_of_plain true plain, pathOf_eq]

theorem query_eq_none_iff {text : String} {u : Url} (h : parse text = .ok u) (hweb : u.isWeb = true) :
    (u.query = none ∧ u.fragment = none) ↔ ∀ c ∈ tailText (trim text.toList), isMark c = false := by
  obtain ⟨rest, hscheme⟩ := scheme?_of_parse h
  rw [parse_eq hscheme (by simpa [isWeb] using hweb)] at h
  obtain ⟨v, -, rfl⟩ := Run.except_map_eq_ok_iff.1 h
  rw [withTail_query, withTail_fragment, ← ending_eq_none_iff true, Prod.ext_iff]

end Url

namespace RepoClient

open Text

/-! ## Places -/

/-- The characters of places. -/
def isPlaceChar (c : Char) : Bool := isSegmentChar c || c == '/'

theorem isPlaceChar_of_mem_placeOf {segments : List String} :
    ∀ c ∈ placeOf segments, isPlaceChar c = true := by
  have hsegment (s : String) : ∀ c ∈ percentSegment s.toList, isPlaceChar c = true := fun c hc => by
    simp [isPlaceChar, (isEscaped_percentSegment s.toList).forall_isSegmentChar c hc]
  induction segments with
  | nil => exact List.forall_mem_nil _
  | cons s rest ih =>
    cases rest with
    | nil => exact hsegment s
    | cons next rest =>
      rw [placeOf_cons_cons, List.forall_mem_append, List.forall_mem_cons]
      exact ⟨hsegment s, rfl, ih⟩

theorem notMem_placeOf {d : Char} (hd : isPlaceChar d = false) (segments : List String) :
    d ∉ placeOf segments := notMem_of_forall isPlaceChar_of_mem_placeOf hd

theorem not_isOuter_of_mem_placeOf {segments : List String} :
    ∀ c ∈ placeOf segments, Url.isOuter c = false := by
  intro c hc
  have hplace := isPlaceChar_of_mem_placeOf c hc
  rw [isPlaceChar, Bool.or_eq_true, beq_iff_eq] at hplace
  rcases hplace with h | rfl
  · have hbounds := toNat_of_isSegmentChar h
    simp only [Url.isOuter, decide_eq_false_iff_not]
    omega
  · decide

theorem not_isMark_of_mem_placeOf {segments : List String} :
    ∀ c ∈ placeOf segments, Url.isMark c = false :=
  Url.not_isMark_of_forall isPlaceChar_of_mem_placeOf (by decide) (by decide)

theorem percentEncode_of_kept {keeps : Char → Bool} {cs : List Char}
    (h : ∀ c ∈ cs, (c.toNat < 0x80 && keeps c) = true) : percentEncode keeps cs = cs := by
  induction cs with
  | nil => rfl
  | cons c cs ih =>
    obtain ⟨hc, hcs⟩ := List.forall_mem_cons.1 h
    have hrest := ih hcs
    unfold percentEncode at hrest ⊢
    rw [List.flatMap_cons, hrest, if_pos hc, List.singleton_append]

theorem keptInPath_of_isSegmentChar {c : Char} (h : isSegmentChar c = true) : Url.keptInPath c = true := by
  have hbounds := toNat_of_isSegmentChar h
  have hgraphic : Url.isGraphic c = true := by simpa [Url.isGraphic] using hbounds
  have hlost : ['"', '<', '>', '\x60', '#', '?', '\x7b', '\x7d'].all (fun d => !isSegmentChar d) = true := by
    decide
  have hne : ∀ d ∈ ['"', '<', '>', '\x60', '#', '?', '\x7b', '\x7d'], c ≠ d := by
    rintro d hd rfl
    simpa [h] using List.all_eq_true.1 hlost c hd
  simp only [List.forall_mem_cons] at hne
  simp [Url.keptInPath, Url.keptInFragment, hgraphic, hne]

/-- A segment is not encoded again. -/
theorem percentEncode_percentSegment (cs : List Char) :
    percentEncode Url.keptInPath (percentSegment cs) = percentSegment cs := by
  refine percentEncode_of_kept fun c hc => ?_
  have hsegment := (isEscaped_percentSegment cs).forall_isSegmentChar c hc
  have hlow : c.toNat < 0x80 := by
    have hbounds := toNat_of_isSegmentChar hsegment
    omega
  simp [hlow, keptInPath_of_isSegmentChar hsegment]

/-- The segments of a place are read as they were written. -/
theorem segments_placeOf {segments : List String} (nonempty : segments ≠ []) :
    (splitOn '/' ((placeOf segments).map Url.unslash)).map (percentEncode Url.keptInPath) =
      segments.map fun s => percentSegment s.toList := by
  rw [Url.map_unslash (notMem_placeOf (by decide) segments), splitOn_placeOf nonempty, List.map_map]
  exact List.map_congr_left fun s _ => percentEncode_percentSegment s.toList

theorem isDot_percentSegment_toList_iff {s : String} :
    Url.isDot (percentSegment s.toList) = false ↔ s ≠ "." ∧ s ≠ ".." := by
  have hone : s.toList = ".".toList ↔ s = "." := String.toList_inj
  have htwo : s.toList = "..".toList ↔ s = ".." := String.toList_inj
  change s.toList = ['.'] ↔ _ at hone
  change s.toList = ['.', '.'] ↔ _ at htwo
  rw [← Bool.not_eq_true, Url.isDot_percentSegment_iff, hone, htwo, not_or]

/-- Parts are written as dot segments only if they are some. -/
theorem forall_not_isDot_iff {segments : List String} :
    (∀ s ∈ segments.map fun s => percentSegment s.toList, Url.isDot s = false) ↔
      ∀ s ∈ segments, s ≠ "." ∧ s ≠ ".." := by
  simp only [List.forall_mem_map, isDot_percentSegment_toList_iff]

/-! ## Requests -/

section

variable {url : String} {auth : Authenticator} {age : Duration} {c : RepoClient} {u : Url}

/-- What is behind the authority in the addresses below a base. -/
def tailOf (url : String) : List Char := Url.tailText (Url.startOf (trimSlashes url.toList))

theorem stopsAt_tailOf (url : String) : StopsAt Url.isInside (tailOf url) := stopsAt_dropWhile _ _

variable (h : create url auth age = .ok c) (hu : Url.parse url = .ok u)

include h

theorem baseUrl_toList : c.baseUrl.toList = trimSlashes url.toList := by
  obtain ⟨-, -, -, rfl⟩ := create_eq_ok h
  exact String.toList_ofList

theorem page_toList (p : Page) :
    (p.url c).toList = trimSlashes url.toList ++ '/' :: placeOf p.segments := by
  rw [p.url_eq, toList_urlOf _ p.segments_ne_nil, baseUrl_toList h]

include hu

theorem isWeb_of_create : u.isWeb = true := by
  obtain ⟨u', hu', hweb, -⟩ := create_eq_ok h
  rw [hu] at hu'
  exact Except.ok.inj hu' ▸ hweb

theorem endsAlike_tailOf : Url.EndsAlike (Url.tailText (Url.trim url.toList)) (tailOf url) := by
  obtain ⟨n, hurl⟩ := eq_trimSlashes_append url.toList
  exact Url.tailText_endsAlike hurl hu (isWeb_of_create h hu)

theorem query_eq_none_iff :
    (u.query = none ∧ u.fragment = none) ↔ ∀ c ∈ tailOf url, Url.isMark c = false :=
  (Url.query_eq_none_iff hu (isWeb_of_create h hu)).trans (endsAlike_tailOf h hu).marks_iff

theorem parse_page (p : Page) :
    Url.tailText (Url.trim (p.url c).toList) = tailOf url ++ '/' :: placeOf p.segments ∧
      Url.parse (p.url c) =
        (Url.afterSlashes u.scheme (Url.authorityText (Url.startOf (trimSlashes url.toList)))).map
          (·.withTail (tailOf url ++ '/' :: placeOf p.segments)) := by
  obtain ⟨n, hurl⟩ := eq_trimSlashes_append url.toList
  exact Url.parse_below hurl hu (isWeb_of_create h hu) not_isOuter_of_mem_placeOf (page_toList h p)

/-- A request's path is what is written without its dot segments. -/
theorem path_of_parse_page {p : Page} {v : Url} (hv : Url.parse (p.url c) = .ok v) :
    v.path = .segments (Url.removeDotSegments (Url.writtenSegments (p.url c))) := by
  refine Url.path_of_parse hv ?_
  rw [(parse_page h hu p).2] at hv
  obtain ⟨w, hw, rfl⟩ := Run.except_map_eq_ok_iff.1 hv
  have hweb := isWeb_of_create h hu
  rw [Url.withTail_isWeb]
  rwa [Url.isWeb, ← Url.afterSlashes_scheme hw] at hweb

/-- A base without dot segments has none in front of what is asked for. -/
theorem not_isDot_of_mem_below (plain : ∀ d ∈ tailOf url, Url.isMark d = false)
    (hbase : ∀ s ∈ Url.writtenSegments url, Url.isDot s = false) :
    ∀ s ∈ Url.below (tailOf url), Url.isDot s = false := by
  have halike := endsAlike_tailOf h hu
  rw [Url.writtenSegments, Url.ending_path_of_plain true (halike.marks_iff.2 plain)] at hbase
  exact Url.not_isDot_of_mem_below halike (stopsAt_tailOf url) plain hbase

theorem writtenSegments_page {p : Page} (plain : ∀ d ∈ tailOf url, Url.isMark d = false) :
    Url.writtenSegments (p.url c) =
      Url.below (tailOf url) ++ p.segments.map fun s => percentSegment s.toList := by
  have hplain : ∀ d ∈ tailOf url ++ '/' :: placeOf p.segments, Url.isMark d = false :=
    List.forall_mem_append.2 ⟨plain, List.forall_mem_cons.2 ⟨rfl, not_isMark_of_mem_placeOf⟩⟩
  rw [Url.writtenSegments, (parse_page h hu p).1, Url.ending_path_of_plain true hplain,
    Url.segmentsOf_append (stopsAt_tailOf url) plain, segments_placeOf p.segments_ne_nil]

theorem writtenSegments_page_of_marked (p : Page) (marked : ¬ ∀ d ∈ tailOf url, Url.isMark d = false) :
    Url.writtenSegments (p.url c) = Url.writtenSegments url := by
  rw [Url.writtenSegments, (parse_page h hu p).1, Url.ending_path_append marked, Url.writtenSegments,
    (endsAlike_tailOf h hu).ending_path marked]

/-- Below a base without query and fragment, an address differs from the base's in its path alone. -/
theorem parse_below_base (last : ∀ d, url.toList.getLast? = some d → Url.isOuter d = false)
    (plain : ∀ d ∈ tailOf url, Url.isMark d = false) {more : List Char} {text : String}
    (hmore : ∀ d ∈ more, Url.isOuter d = false ∧ Url.isMark d = false)
    (htext : text.toList = trimSlashes url.toList ++ '/' :: more) :
    Url.parse text = .ok { u with
      path := .segments (Url.removeDotSegments (Url.below (tailOf url) ++
        (splitOn '/' (more.map Url.unslash)).map (percentEncode Url.keptInPath))) } := by
  have hweb := isWeb_of_create h hu
  obtain ⟨n, hurl⟩ := eq_trimSlashes_append url.toList
  obtain ⟨v, hv, hbaseUrl⟩ := Url.parse_base hurl hu hweb last
  have hslashes : ∀ d ∈ tailOf url ++ List.replicate n '/', Url.isMark d = false :=
    List.forall_mem_append.2 ⟨plain, fun d hd => List.eq_of_mem_replicate hd ▸ by decide⟩
  have hplain : ∀ d ∈ tailOf url ++ '/' :: more, Url.isMark d = false :=
    List.forall_mem_append.2 ⟨plain, List.forall_mem_cons.2 ⟨rfl, fun d hd => (hmore d hd).2⟩⟩
  rw [(Url.parse_below hurl hu hweb (fun d hd => (hmore d hd).1) htext).2, hv, ← tailOf, Except.map,
    Url.withTail_of_plain v hplain, Url.segmentsOf_append (stopsAt_tailOf url) plain]
  rw [← tailOf, Url.withTail_of_plain v hslashes] at hbaseUrl
  rw [hbaseUrl]

theorem parse_directory (last : ∀ d, url.toList.getLast? = some d → Url.isOuter d = false)
    (plain : ∀ d ∈ tailOf url, Url.isMark d = false)
    (hbase : ∀ s ∈ Url.writtenSegments url, Url.isDot s = false) :
    Url.parse (c.baseUrl ++ "/") =
      .ok { u with path := .segments (Url.below (tailOf url) ++ [[]]) } := by
  have hdirectory : (c.baseUrl ++ "/").toList = trimSlashes url.toList ++ '/' :: [] := by
    rw [String.toList_append, baseUrl_toList h]
    rfl
  have hsegment : (splitOn '/' (([] : List Char).map Url.unslash)).map (percentEncode Url.keptInPath) =
      [[]] := rfl
  have hempty : ∀ s ∈ [[]], Url.isDot s = false := by decide
  have hkept := List.forall_mem_append.2 ⟨not_isDot_of_mem_below h hu plain hbase, hempty⟩
  rw [parse_below_base h hu last plain (List.forall_mem_nil _) hdirectory, hsegment,
    Url.removeDotSegments_eq_self_iff.2 hkept]

theorem parse_page_of_plain (last : ∀ d, url.toList.getLast? = some d → Url.isOuter d = false)
    (plain : ∀ d ∈ tailOf url, Url.isMark d = false)
    (hbase : ∀ s ∈ Url.writtenSegments url, Url.isDot s = false) {p : Page}
    (hp : ∀ s ∈ p.segments, s ≠ "." ∧ s ≠ "..") :
    Url.parse (p.url c) = .ok { u with
      path := .segments (Url.below (tailOf url) ++ p.segments.map fun s => percentSegment s.toList) } := by
  have hplace : ∀ d ∈ placeOf p.segments, Url.isOuter d = false ∧ Url.isMark d = false :=
    fun d hd => ⟨not_isOuter_of_mem_placeOf d hd, not_isMark_of_mem_placeOf d hd⟩
  have hkept := List.forall_mem_append.2
    ⟨not_isDot_of_mem_below h hu plain hbase, forall_not_isDot_iff.2 hp⟩
  rw [parse_below_base h hu last plain hplace (page_toList h p), segments_placeOf p.segments_ne_nil,
    Url.removeDotSegments_eq_self_iff.2 hkept]

end

/-- Below a base whose path has no dot segments, a request's path is what it is written as exactly if neither
the name nor the version is a dot segment itself; then it is the base's path with the document behind
it. With a query or a fragment, all requests have the path of the base. -/
theorem requests_stay_below_base {url : String} {auth : Authenticator} {age : Duration} {c : RepoClient}
    {u : Url} (h : create url auth age = .ok c) (hu : Url.parse url = .ok u)
    (hbase : ∀ s ∈ Url.writtenSegments url, Url.isDot s = false) :
    (∀ p : Page,
      (∀ v, Url.parse (p.url c) = .ok v →
        v.path = .segments (Url.removeDotSegments (Url.writtenSegments (p.url c)))) ∧
      (Url.removeDotSegments (Url.writtenSegments (p.url c)) = Url.writtenSegments (p.url c) ↔
        (u.query = none → u.fragment = none → ∀ s ∈ p.segments, s ≠ "." ∧ s ≠ ".."))) ∧
    ((∀ d, url.toList.getLast? = some d → 0x20 < d.toNat) → u.query = none → u.fragment = none →
      ∃ parts, Url.parse (c.baseUrl ++ "/") = .ok { u with path := .segments (parts ++ [[]]) } ∧
        ∀ p : Page, (∀ s ∈ p.segments, s ≠ "." ∧ s ≠ "..") → Url.parse (p.url c) =
          .ok { u with path := .segments (parts ++ p.segments.map fun s => percentSegment s.toList) }) := by
  have hnone := query_eq_none_iff h hu
  refine ⟨fun p => ⟨fun v => path_of_parse_page h hu, ?_⟩, fun hlast hquery hfragment => ?_⟩
  · rw [Url.removeDotSegments_eq_self_iff]
    by_cases plain : ∀ d ∈ tailOf url, Url.isMark d = false
    · obtain ⟨hquery, hfragment⟩ := hnone.2 plain
      rw [writtenSegments_page h hu plain, List.forall_mem_append,
        and_iff_right (not_isDot_of_mem_below h hu plain hbase), forall_not_isDot_iff]
      exact ⟨fun hp _ _ => hp, fun hp => hp hquery hfragment⟩
    · rw [writtenSegments_page_of_marked h hu p plain]
      exact iff_of_true hbase fun hquery hfragment => absurd (hnone.1 ⟨hquery, hfragment⟩) plain
  · have plain := hnone.1 ⟨hquery, hfragment⟩
    have last : ∀ d, url.toList.getLast? = some d → Url.isOuter d = false :=
      fun d hd => by simpa [Url.isOuter] using hlast d hd
    exact ⟨Url.below (tailOf url), parse_directory h hu last plain hbase,
      fun p => parse_page_of_plain h hu last plain hbase⟩

theorem requests_stay_below_base_http :
    ∃ c u, create "http://main.test/a/" .anonymous (.ofSeconds 300) = .ok c ∧
      Url.parse "http://main.test/a/" = .ok u ∧
      Url.parse ((Page.manifest "../b" "1+2").url c) = .ok { u with
        path := .segments (["a", "..%2Fb", "1%2B2", "package.yaml"].map String.toList) } := by
  have hc : create "http://main.test/a/" .anonymous (.ofSeconds 300) =
      .ok { baseUrl := "http://main.test/a", auth := .anonymous, maxCacheAge := .ofSeconds 300 } := rfl
  have hu : Url.parse "http://main.test/a/" =
      .ok { scheme := Url.http, host := some (.domain "main.test".toList)
            path := .segments [['a'], []] } := by decide +kernel
  obtain ⟨-, hpages⟩ := requests_stay_below_base hc hu (by decide +kernel)
  have hlast : ∀ d, some '/' = some d → 0x20 < d.toNat := by
    rintro d ⟨⟩
    decide
  obtain ⟨parts, hdirectory, hparse⟩ := hpages hlast rfl rfl
  have hparts : parts = [['a']] := by
    have hbase : "http://main.test/a" ++ "/" = "http://main.test/a/" := by decide
    rw [hbase, hu] at hdirectory
    have hpath : [['a']] ++ [[]] = parts ++ [[]] :=
      Url.Path.segments.inj (congrArg Url.path (Except.ok.inj hdirectory))
    exact (List.append_cancel_right hpath).symm
  refine ⟨_, _, hc, hu, ?_⟩
  rw [hparse (.manifest "../b" "1+2") (by decide), hparts]
  decide +kernel

/-- A package called by two points: its manifest is asked for outside the base. A version of another
package's name, of a package called by one point: that package's manifest is asked for. -/
theorem dot_names_leave_base :
    ∃ c, create "http://main.test/a" .anonymous (.ofSeconds 300) = .ok c ∧
      (∀ s ∈ Url.writtenSegments "http://main.test/a", Url.isDot s = false) ∧
      (Page.manifest ".." "v1").url c = "http://main.test/a/../v1/package.yaml" ∧
      Url.removeDotSegments (Url.writtenSegments ((Page.manifest ".." "v1").url c)) ≠
        Url.writtenSegments ((Page.manifest ".." "v1").url c) ∧
      Url.parse ((Page.manifest ".." "v1").url c) = Url.parse "http://main.test/v1/package.yaml" ∧
      Url.parse ((Page.manifest "." "nginx").url c) =
        Url.parse ((Page.versionlessManifest "nginx").url c) := by
  refine ⟨{ baseUrl := "http://main.test/a", auth := .anonymous, maxCacheAge := .ofSeconds 300 }, rfl, ?_⟩
  decide +kernel

end RepoClient
end ClusterPackages
