import ClusterPackages.Proofs.Cutting
import ClusterPackages.Proofs.Run
import ClusterPackages.Url.Parser

/-! How a web address is put together: a scheme, an authority, and behind these a path with its query and
fragment. An authority ends where the first slash, question mark or number sign stands, and what
follows that has no part in reading it. So an address is read in two halves (`parse_eq`), and the path is
what is written there without its dot segments (`path_of_parse`). -/

namespace ClusterPackages.Url

open Text

/-! ## Two halves -/

def isSlash (c : Char) : Bool := c == '/' || c == '\\'

/-- The characters of an authority. -/
def isInside (c : Char) : Bool := !isEnd true c

/-- An address with another path, query and fragment, as they are written behind the authority. -/
def withTail (u : Url) (tail : List Char) : Url :=
  { u with
    path := pathOf true (ending true tail).1
    query := (ending true tail).2.1
    fragment := (ending true tail).2.2 }

theorem withTail_query (u : Url) (tail : List Char) :
    (u.withTail tail).query = (ending true tail).2.1 := rfl

theorem withTail_fragment (u : Url) (tail : List Char) :
    (u.withTail tail).fragment = (ending true tail).2.2 := rfl

theorem withTail_isWeb (u : Url) (tail : List Char) : (u.withTail tail).isWeb = u.isWeb := rfl

/-- What follows the scheme and the slashes behind it. -/
def hierarchy (cs : List Char) : List Char := (((scheme? cs).map Prod.snd).getD []).dropWhile isSlash

def authorityText (cs : List Char) : List Char := (hierarchy cs).takeWhile isInside

def tailText (cs : List Char) : List Char := (hierarchy cs).dropWhile isInside

/-! ## Authorities -/

variable {front tail : List Char}

/-- Characters of a class that none of the ends belongs to. -/
theorem isInside_of {p : Char → Bool} (ends : ['/', '?', '#', '\\'].all (fun d => !p d) = true)
    {c : Char} (h : p c = true) : isInside c = true := by
  have hne : ∀ d ∈ ['/', '?', '#', '\\'], c ≠ d := by
    rintro d hd rfl
    simpa [h] using List.all_eq_true.1 ends c hd
  simp only [List.forall_mem_cons] at hne
  simp [isInside, isEnd, hne]

theorem hostText_of_stopsAt (stops : StopsAt isInside tail) (inBrackets : Bool) :
    hostText true inBrackets tail = [] := by
  cases tail with
  | nil => rfl
  | cons c cs =>
    have hc : isEnd true c = true := by simpa [isInside] using stops c rfl
    simp [hostText, hc]

theorem hostText_append (stops : StopsAt isInside tail) (inBrackets : Bool) :
    hostText true inBrackets (front ++ tail) = hostText true inBrackets front := by
  induction front generalizing inBrackets with
  | nil => exact hostText_of_stopsAt stops inBrackets
  | cons c front ih =>
    rw [List.cons_append, hostText, hostText]
    split_ifs <;> simp [ih]

/-- The text of a host is a front; behind it the authority is at its end, or a colon follows. -/
theorem exists_eq_hostText_append (inside : ∀ c ∈ front, isInside c = true) (inBrackets : Bool) :
    ∃ rest, front = hostText true inBrackets front ++ rest ∧ (rest = [] ∨ ∃ port, rest = ':' :: port) := by
  induction front generalizing inBrackets with
  | nil => exact ⟨[], rfl, .inl rfl⟩
  | cons c front ih =>
    obtain ⟨hc, hfront⟩ := List.forall_mem_cons.1 inside
    have hend : isEnd true c = false := by simpa [isInside] using hc
    by_cases hstop : (isEnd true c || (c == ':' && !inBrackets)) = true
    · have hcolon : c = ':' := by
        rw [hend, Bool.false_or, Bool.and_eq_true, beq_iff_eq] at hstop
        exact hstop.1
      rw [hostText, if_pos hstop]
      exact ⟨_, rfl, .inr ⟨front, by rw [hcolon]⟩⟩
    · obtain ⟨rest, hrest, hport⟩ := ih hfront
        (if c = '[' then true else if c = ']' then false else inBrackets)
      rw [hostText, if_neg hstop]
      exact ⟨rest, by rw [List.cons_append, ← hrest], hport⟩

/-- All that is left of an authority is a port. -/
theorem readPort_append (inside : ∀ c ∈ front, isInside c = true) (stops : StopsAt isInside tail)
    (port : front = [] ∨ ∃ digits, front = ':' :: digits) :
    readPort (front ++ tail) = (readPort front).map fun p => (p.1, tail) := by
  have hend : tail.head?.any (fun c => !isEnd true c) = false := by
    cases tail with
    | nil => rfl
    | cons c cs => exact stops c rfl
  rcases port with rfl | ⟨cs, rfl⟩
  · rw [List.nil_append, readPort.eq_def]
    split
    · exact absurd (stops ':' rfl) (by decide)
    · rfl
  · have hcs := (List.forall_mem_cons.1 inside).2
    have hdigits : (cs ++ tail).takeWhile isDigit = cs.takeWhile isDigit :=
      takeWhile_append_of_stopsAt (stops.mono fun c => isInside_of (by decide))
    have hle : (cs.takeWhile isDigit).length ≤ cs.length := (List.takeWhile_prefix isDigit).length_le
    have hrest : ∀ c ∈ cs.drop (cs.takeWhile isDigit).length, isInside c = true :=
      fun c hc => hcs c (List.mem_of_mem_drop hc)
    simp only [List.cons_append, readPort, hdigits, List.drop_append_of_le_length hle]
    generalize cs.drop (cs.takeWhile isDigit).length = rest at hrest ⊢
    cases rest with
    | nil =>
      by_cases hlarge : 65535 < decimal (cs.takeWhile isDigit)
      · simp [hlarge, Except.map]
      · simp [hlarge, hend, Except.map]
    | cons c rest =>
      have hc : isEnd true c = false := by simpa [isInside] using hrest c List.mem_cons_self
      simp [hc, Except.map]

/-- A host is what an authority has behind its user. -/
theorem userInfo_append (inside : ∀ c ∈ front, isInside c = true) (stops : StopsAt isInside tail) :
    ∃ user pass host, userInfo true front = .ok (user, pass, host) ∧
      (∀ c ∈ host, isInside c = true) ∧
      (userInfo true (front ++ tail) = .ok (user, pass, host ++ tail) ∨
        host = [] ∧ userInfo true (front ++ tail) = .error .emptyHost) := by
  have hauthority : (front ++ tail).takeWhile isInside = front := takeWhile_cut inside stops
  have hfront : front.takeWhile isInside = front := List.takeWhile_eq_self_iff.2 inside
  unfold isInside at hauthority hfront
  simp only [userInfo, hauthority, hfront]
  by_cases hat : front.contains '@' = true
  · set name := (front.reverse.takeWhile (· != '@')).reverse
    set info := front.take (front.length - name.length - 1)
    -- the at sign itself is behind the user, so what is dropped stays within the authority
    have hlength : info.length + 1 ≤ front.length := by
      have hpositive : 0 < front.length := by
        cases front with
        | nil => cases hat
        | cons c cs => exact Nat.succ_pos _
      simp only [info, List.length_take]
      omega
    have hinside : ∀ c ∈ front.drop (info.length + 1), isInside c = true :=
      fun c hc => inside c (List.mem_of_mem_drop hc)
    rw [hat, List.drop_append_of_le_length hlength]
    generalize front.drop (info.length + 1) = host at hinside ⊢
    have hend : host.head?.any (isEnd true) = false := by
      cases host with
      | nil => rfl
      | cons c cs => simpa [isInside] using hinside c List.mem_cons_self
    refine ⟨percentEncode keptInUser (info.takeWhile (· != ':')),
      percentEncode keptInUser (info.drop ((info.takeWhile (· != ':')).length + 1)), host, ?_,
      hinside, ?_⟩
    · rw [hend]
      simp
    · by_cases hempty : info = [] ∧ (host ++ tail).head?.any (isEnd true) = true
      · refine .inr ⟨?_, by rw [if_neg (by decide), if_pos hempty]⟩
        cases host with
        | nil => rfl
        | cons c cs =>
          have hc : isEnd true c = true := hempty.2
          rw [show isEnd true c = false from hend] at hc
          cases hc
      · refine .inl ?_
        rw [if_neg (by decide), if_neg hempty]
  · rw [Bool.not_eq_true] at hat
    rw [hat]
    exact ⟨[], [], front, rfl, inside, .inl rfl⟩

theorem afterSlashes_append {scheme : List Char} (special : (defaultPort? scheme).isSome = true)
    (inside : ∀ c ∈ front, isInside c = true) (stops : StopsAt isInside tail) :
    afterSlashes scheme (front ++ tail) = (afterSlashes scheme front).map (·.withTail tail) := by
  obtain ⟨user, pass, host, huser, hhost, happend⟩ := userInfo_append inside stops
  obtain ⟨rest, hsplit, hport⟩ := exists_eq_hostText_append hhost false
  have hrest : host.drop (hostText true false host).length = rest :=
    (congrArg (List.drop _) hsplit).trans List.drop_left
  have hle : (hostText true false host).length ≤ host.length :=
    (congrArg List.length hsplit).ge.trans' (by simp)
  have hread : readPort (rest ++ tail) = (readPort rest).map fun p => (p.1, tail) :=
    readPort_append (fun c hc => hhost c (List.mem_of_mem_drop (hrest.symm ▸ hc))) stops hport
  unfold afterSlashes
  simp only [special, huser]
  rcases happend with happend | ⟨rfl, happend⟩
  · simp only [happend, bind, Except.bind, hostText_append stops, List.drop_append_of_le_length hle,
      hrest, hread]
    by_cases hname : hostText true false host = []
    · simp [hname, Except.map]
    · cases readHost (hostText true false host) with
      | error f => simp [hname, Except.map]
      | ok h => cases readPort rest <;> simp [hname, Except.map, withTail, pure, Except.pure]
  · simp [happend, bind, Except.bind, Except.map, hostText]

/-! ## Schemes -/

def isSchemeChar (c : Char) : Bool := isAsciiLetter c || isDigit c || c == '+' || c == '-' || c == '.'

/-- The characters of a scheme and the colon behind it. -/
def inScheme (c : Char) : Bool := isSchemeChar c || c == ':'

theorem scheme?_eq (cs : List Char) :
    scheme? cs = match cs.head?, cs.dropWhile isSchemeChar with
      | some c, ':' :: rest =>
        if isAsciiLetter c then some ((cs.takeWhile isSchemeChar).map asciiLower, rest) else none
      | _, _ => none := rfl

/-- What follows a scheme has no part in reading it if it does not go on with it. -/
theorem scheme?_append {cs ys : List Char} (stops : StopsAt inScheme ys) :
    scheme? (cs ++ ys) = (scheme? cs).map fun p => (p.1, p.2 ++ ys) := by
  have hstops : StopsAt isSchemeChar ys := stops.mono fun c hc => by simp [inScheme, hc]
  -- the colon itself is not left to what follows
  have hcolon : ∀ d, ys.head? = some d → d ≠ ':' := by
    rintro d hd rfl
    exact absurd (stops ':' hd) (by decide)
  rw [scheme?_eq, scheme?_eq, takeWhile_append_of_stopsAt hstops, dropWhile_append_of_stopsAt hstops]
  cases cs with
  | nil =>
    cases ys with
    | nil => rfl
    | cons d ys => simp [hcolon d rfl]
  | cons c cs =>
    cases hrest : (c :: cs).dropWhile isSchemeChar with
    | nil =>
      cases ys with
      | nil => simp
      | cons d ys => simp [hcolon d rfl]
    | cons d rest =>
      by_cases hd : d = ':'
      · subst hd
        simp only [List.head?_cons, List.cons_append]
        split_ifs <;> rfl
      · simp [hd]

theorem afterSlashes_scheme {scheme cs : List Char} {u : Url} (h : afterSlashes scheme cs = .ok u) :
    u.scheme = scheme := by
  unfold afterSlashes at h
  obtain ⟨⟨user, pass, rest⟩, -, h⟩ := Run.except_bind_eq_ok_iff.1 h
  dsimp only at h
  split_ifs at h with hempty hspecial
  all_goals
    obtain ⟨host, -, h⟩ := Run.except_bind_eq_ok_iff.1 h
    obtain ⟨⟨port, after⟩, -, h⟩ := Run.except_bind_eq_ok_iff.1 h
    obtain rfl := Except.ok.inj h
    rfl

theorem fileUrl_scheme {cs : List Char} {u : Url} (h : fileUrl cs = .ok u) : u.scheme = file := by
  unfold fileUrl at h
  dsimp only at h
  split_ifs at h
  all_goals
    obtain ⟨host, -, h⟩ := Run.except_bind_eq_ok_iff.1 h
    obtain rfl := Except.ok.inj h
    rfl

theorem scheme?_of_parse {text : String} {u : Url} (h : parse text = .ok u) :
    ∃ rest, scheme? (trim text.toList) = some (u.scheme, rest) := by
  unfold parse at h
  cases hread : scheme? (trim text.toList) with
  | none =>
    rw [hread] at h
    cases h
  | some p =>
    obtain ⟨scheme, rest⟩ := p
    simp only [hread] at h
    suffices hsame : u.scheme = scheme from ⟨rest, by rw [hsame]⟩
    split_ifs at h with hfile hspecial
    · rw [fileUrl_scheme h, hfile]
    · exact afterSlashes_scheme h
    · split at h
      · exact afterSlashes_scheme h
      · obtain rfl := Except.ok.inj h
        rfl

theorem parse_eq {text : String} {scheme rest : List Char}
    (h : scheme? (trim text.toList) = some (scheme, rest)) (web : scheme = http ∨ scheme = https) :
    parse text = (afterSlashes scheme (authorityText (trim text.toList))).map
      (·.withTail (tailText (trim text.toList))) := by
  have hfile : scheme ≠ file := by rcases web with rfl | rfl <;> decide
  have hspecial : (defaultPort? scheme).isSome = true := by rcases web with rfl | rfl <;> decide
  have hhierarchy : hierarchy (trim text.toList) = rest.dropWhile isSlash := by simp [hierarchy, h]
  unfold parse
  simp only [h, if_neg hfile, if_pos hspecial]
  change afterSlashes scheme (rest.dropWhile isSlash) = _
  have hsplit : hierarchy (trim text.toList) =
      authorityText (trim text.toList) ++ tailText (trim text.toList) :=
    List.takeWhile_append_dropWhile.symm
  rw [← hhierarchy, hsplit]
  exact afterSlashes_append hspecial (fun c => List.mem_takeWhile_imp) (stopsAt_dropWhile _ _)

/-! ## Paths -/

/-- What is behind the first slash of a path. -/
def behindSlash (cs : List Char) : List Char :=
  match cs with
  | '/' :: rest => rest
  | _ => cs

def unslash (c : Char) : Char := if c = '\\' then '/' else c

/-- The segments of a path as they are written, dot segments among them. -/
def segmentsOf (path : List Char) : List (List Char) :=
  (splitOn '/' (behindSlash (path.map unslash))).map (percentEncode keptInPath)

theorem pathOf_eq (path : List Char) :
    pathOf true path = .segments (removeDotSegments (segmentsOf path)) := by
  unfold pathOf segmentsOf behindSlash
  simp only [if_true]
  rfl

/-- The segments of an address's path as they are written. -/
def writtenSegments (text : String) : List (List Char) :=
  segmentsOf (ending true (tailText (trim text.toList))).1

theorem path_of_parse {text : String} {u : Url} (h : parse text = .ok u) (hweb : u.isWeb = true) :
    u.path = .segments (removeDotSegments (writtenSegments text)) := by
  obtain ⟨rest, hscheme⟩ := scheme?_of_parse h
  rw [parse_eq hscheme (by simpa [isWeb] using hweb)] at h
  obtain ⟨v, -, rfl⟩ := Run.except_map_eq_ok_iff.1 h
  exact pathOf_eq _

/-! ## Endings -/

def isMark (c : Char) : Bool := c == '?' || c == '#'

theorem ending_path (special : Bool) (cs : List Char) :
    (ending special cs).1 = cs.takeWhile fun c => !isMark c := by
  unfold ending
  dsimp only
  rw [List.takeWhile_takeWhile]
  congr 1
  funext c
  by_cases hquestion : c = '?' <;> by_cases hnumber : c = '#' <;> simp [isMark, hquestion, hnumber]

theorem ending_path_of_plain (special : Bool) {cs : List Char} (plain : ∀ c ∈ cs, isMark c = false) :
    (ending special cs).1 = cs := by
  rw [ending_path, List.takeWhile_eq_self_iff]
  exact fun c hc => Bool.not_eq_true' _ ▸ plain c hc

/-- Characters of a class that neither mark belongs to. -/
theorem not_isMark_of_forall {p : Char → Bool} {cs : List Char} (h : ∀ c ∈ cs, p c = true)
    (hquestion : p '?' = false) (hnumber : p '#' = false) : ∀ c ∈ cs, isMark c = false := by
  intro c hc
  have hneQuestion := ne_of_mem_of_not_mem hc (notMem_of_forall h hquestion)
  have hneNumber := ne_of_mem_of_not_mem hc (notMem_of_forall h hnumber)
  simp [isMark, hneQuestion, hneNumber]

/-- An address has neither query nor fragment exactly if nothing in it introduces one. -/
theorem ending_eq_none_iff (special : Bool) (cs : List Char) :
    (ending special cs).2 = (none, none) ↔ ∀ c ∈ cs, isMark c = false := by
  have hnil {d : Char} {ds : List Char} : ds.dropWhile (· != d) = [] ↔ d ∉ ds := by
    rw [List.dropWhile_eq_nil_iff]
    simp only [bne_iff_ne]
    exact ⟨fun h hd => h d hd rfl, fun h c hc => ne_of_mem_of_not_mem hc h⟩
  have hparts : (ending special cs).2 = (none, none) ↔
      (cs.takeWhile (· != '#')).dropWhile (· != '?') = [] ∧ cs.dropWhile (· != '#') = [] := by
    simp only [ending, drop_length_takeWhile]
    cases (cs.takeWhile (· != '#')).dropWhile (· != '?') <;>
      cases cs.dropWhile (· != '#') <;> simp
  rw [hparts, hnil, hnil]
  constructor
  · rintro ⟨hquestion, hnumber⟩ c hc
    have hwhole : cs.takeWhile (· != '#') = cs :=
      List.takeWhile_eq_self_iff.2 fun d hd => by simpa using ne_of_mem_of_not_mem hd hnumber
    rw [hwhole] at hquestion
    simp [isMark, ne_of_mem_of_not_mem hc hquestion, ne_of_mem_of_not_mem hc hnumber]
  · intro plain
    refine ⟨fun h => ?_, fun h => ?_⟩
    · cases plain _ (List.takeWhile_subset _ h)
    · cases plain _ h

end ClusterPackages.Url
