import ClusterPackages.Proofs.DurationText
import ClusterPackages.Proofs.PercentText
import ClusterPackages.Proofs.WrittenEntries
import ClusterPackages.Settings

/-! Settings that are saved and loaded. The file has one line for each setting; both durations are read
from it as they were, and so is the namespace unless it has line breaks of its own. -/

namespace ClusterPackages

open Text Yaml

/-! ## Records of leaves -/

namespace Record

variable {σ : Type}

/-- An entry whose key is met for the first time sets its field. -/
theorem readEntries_leaf {rules : RecordRules} {fields : List (Field σ)} {key : String} {f : Field σ}
    (hfind : fields.find? (·.name == key) = some f) {seen : List String} (hfresh : seen.contains key = false)
    {ctx : Context} {v : Node} {x y : σ} (hread : f.read ctx v x = pure y) (tag : Option String)
    (style : ScalarStyle) (rest : List (Node × Node)) :
    readEntries rules fields ctx seen x ((.scalar tag style key, v) :: rest) =
      readEntries rules fields ctx (key :: seen) y rest := by
  have hkey : Decoder.text ctx (.scalar tag style key) = pure key := rfl
  rw [readEntries, hkey, pure_bind, hfind]
  dsimp only
  rw [hfresh, Bool.and_false, if_neg Bool.false_ne_true, hread, pure_bind]

end Record

namespace Yaml

/-- A document with a record of three leaves. -/
def threeLeaves (k₁ k₂ k₃ : String) (s₁ s₂ s₃ : ScalarStyle) (t₁ t₂ t₃ : String) : Document where
  format := .yaml
  root := .record none
    [(.scalar none .plain k₁, .scalar none s₁ t₁), (.scalar none .plain k₂, .scalar none s₂ t₂),
     (.scalar none .plain k₃, .scalar none s₃ t₃)]
  anchors := []
  jumpLimit := 8 * jumpsPerEvent
  depthLimit := some depthLimit
  ending := none

theorem readEvents_entryTokens (k₁ k₂ k₃ : String) (s₁ s₂ s₃ : ScalarStyle) (t₁ t₂ t₃ : List Char) :
    readEvents (Event.ofTokens (Lexer.entryTokens false k₁ s₁ t₁ ++ (Lexer.entryTokens true k₂ s₂ t₂ ++
      (Lexer.entryTokens true k₃ s₃ t₃ ++ [.blockEnd, .streamEnd])))) =
    threeLeaves (String.ofList k₁.toList) (String.ofList k₂.toList) (String.ofList k₃.toList) s₁ s₂ s₃
      (String.ofList t₁) (String.ofList t₂) (String.ofList t₃) := by
  rfl

end Yaml

namespace Settings

theorem decode_duration {text : String} {d : Duration} (h : Duration.ofText? text = some d) (ctx : Context)
    (tag : Option String) (style : ScalarStyle) :
    durationCodec.decode ctx (.scalar tag style text) = pure d := by
  have htext : Decoder.text ctx (.scalar tag style text) = pure text := rfl
  simp only [durationCodec, htext, pure_bind, h]

theorem readEntries_threeLeaves {a b : Duration} {ta tb : String} (ha : Duration.ofText? ta = some a)
    (hb : Duration.ofText? tb = some b) (s₁ s₂ s₃ : ScalarStyle) (ns : String) (ctx : Context) :
    Record.readEntries .strict fields ctx [] ({} : Settings)
      [(.scalar none .plain "maxCacheAge", .scalar none s₁ ta),
       (.scalar none .plain "clientCheckInterval", .scalar none s₂ tb),
       (.scalar none .plain "secretNamespace", .scalar none s₃ ns)] =
      pure (["secretNamespace", "clientCheckInterval", "maxCacheAge"], ⟨a, b, ns⟩) := by
  have hage (x : Settings) : Field.read (.always "maxCacheAge" durationCodec (·.maxCacheAge)
      (fun d x => { x with maxCacheAge := d })) ctx (.scalar none s₁ ta) x =
        pure { x with maxCacheAge := a } := by
    rw [Field.always]
    simp only [decode_duration ha, pure_bind]
  have hinterval (x : Settings) : Field.read (.always "clientCheckInterval" durationCodec (·.clientCheckInterval)
      (fun d x => { x with clientCheckInterval := d })) ctx (.scalar none s₂ tb) x =
        pure { x with clientCheckInterval := b } := by
    rw [Field.always]
    simp only [decode_duration hb, pure_bind]
  rw [Record.readEntries_leaf rfl rfl (hage _), Record.readEntries_leaf rfl rfl (hinterval _),
    Record.readEntries_leaf (y := ⟨a, b, ns⟩) rfl rfl rfl]
  rfl

theorem decode_threeLeaves {a b : Duration} {ta tb : String} (ha : Duration.ofText? ta = some a)
    (hb : Duration.ofText? tb = some b) (s₁ s₂ s₃ : ScalarStyle) (ns : String) :
    (threeLeaves "maxCacheAge" "clientCheckInterval" "secretNamespace" s₁ s₂ s₃ ta tb ns).decode codec.decode =
      .ok ⟨a, b, ns⟩ := by
  have hroot (ctx : Context) : codec.decode ctx
      (threeLeaves "maxCacheAge" "clientCheckInterval" "secretNamespace" s₁ s₂ s₃ ta tb ns).root =
        ctx.inside >>= fun _ => pure ⟨a, b, ns⟩ := by
    change (ctx.inside >>= fun ctx => Record.fromEntries .strict fields {} ctx _) = _
    simp only [Record.fromEntries, readEntries_threeLeaves ha hb, pure_bind]
    rfl
  rw [Document.decode, hroot]
  rfl

/-! ## Tokens -/

theorem isKey_maxCacheAge : Lexer.IsKey "maxCacheAge".toList := by decide

theorem isKey_clientCheckInterval : Lexer.IsKey "clientCheckInterval".toList := by decide

theorem isKey_secretNamespace : Lexer.IsKey "secretNamespace".toList := by decide

theorem isAllowed_toText (s : Settings) : s.toText.all isAllowed = true := by
  have hkey (key : String) (h : key.toList.all isAllowed = true) := isAllowed_entryLine (List.all_eq_true.1 h)
  rw [List.all_eq_true, toText, List.forall_mem_append, List.forall_mem_append]
  exact ⟨⟨hkey "maxCacheAge" (by decide) _, hkey "clientCheckInterval" (by decide) _⟩,
    hkey "secretNamespace" (by decide) _⟩

theorem head?_toText (s : Settings) : s.toText.head? = some 'm' := by
  obtain ⟨rest, hline⟩ := exists_entryLine "maxCacheAge" s.maxCacheAge.text
  rw [toText, hline]
  rfl

/-- The tokens of the file: a key and a value for each setting. -/
theorem exists_tokens_toText (s : Settings) (hage : '\n' ∉ s.maxCacheAge.text.toList)
    (hinterval : '\n' ∉ s.clientCheckInterval.text.toList) :
    ∃ s₁ s₂ s₃ ns, Token.ofText s.toText =
      Lexer.entryTokens false "maxCacheAge" s₁ s.maxCacheAge.text.toList ++
        (Lexer.entryTokens true "clientCheckInterval" s₂ s.clientCheckInterval.text.toList ++
          (Lexer.entryTokens true "secretNamespace" s₃ ns ++ [.blockEnd, .streamEnd])) ∧
      ('\n' ∉ s.secretNamespace.toList → ns = s.secretNamespace.toList) := by
  have hmark : s.toText.head? ≠ some '\ufeff' := by
    rw [head?_toText]
    decide
  have htokens : Token.ofText s.toText =
      Lexer.run (10 * (s.toText.length + 4)) (Lexer.atEntry false 0 (Cursor.start s.toText)) := by
    simp only [Token.ofText, if_neg hmark, isAllowed_toText, if_true]
    rfl
  have hfuel : 10 * (s.toText.length + 4) = 10 * s.toText.length + 15 + 3 +
      (Lexer.entrySteps true "secretNamespace" + (Lexer.entrySteps true "clientCheckInterval" +
        Lexer.entrySteps false "maxCacheAge")) := by
    change _ = _ + (7 + (7 + 8))
    omega
  obtain ⟨s₁, n₁, i₁, l₁, h₁⟩ := Lexer.reads_entry isKey_maxCacheAge (fun h => absurd h hage)
    (Lexer.beginsToken_entryLine isKey_clientCheckInterval s.clientCheckInterval.text
      (entryLine "secretNamespace" s.secretNamespace)) false 0 0 0
  obtain ⟨s₂, n₂, i₂, l₂, h₂⟩ := Lexer.reads_entry isKey_clientCheckInterval (fun h => absurd h hinterval)
    (Lexer.beginsToken_entryLine isKey_secretNamespace s.secretNamespace []) true n₁ i₁ l₁
  rw [List.append_nil] at h₂
  obtain ⟨s₃, ns, n₃, c, h₃, hend, hns⟩ :=
    Lexer.reads_lastEntry isKey_secretNamespace s.secretNamespace true n₂ i₂ l₂
  have hread := ((h₁.trans h₂).trans h₃) (10 * s.toText.length + 15 + 3)
  rw [Lexer.run_end hend, List.append_assoc, List.append_assoc] at hread
  refine ⟨s₁, s₂, s₃, ns, ?_, hns⟩
  rw [htokens, hfuel, Cursor.start, toText, List.append_assoc]
  rw [toText, List.append_assoc] at hread
  exact hread

/-! ## The file -/

theorem ofText_toText_of_nanos_lt (s : Settings) (hage : s.maxCacheAge.nanos < Duration.limit)
    (hinterval : s.clientCheckInterval.nanos < Duration.limit) :
    ∃ ns, ofText s.toText = .ok { s with secretNamespace := ns } ∧
      ('\n' ∉ s.secretNamespace.toList → ns = s.secretNamespace) := by
  obtain ⟨s₁, s₂, s₃, ns, htokens, hns⟩ := exists_tokens_toText s (Duration.newline_notMem_text _ hage)
    (Duration.newline_notMem_text _ hinterval)
  refine ⟨String.ofList ns, ?_, fun h => by rw [hns h, String.ofList_toList]⟩
  rw [ofText, Yaml.read, htokens, readEvents_entryTokens]
  simp only [String.ofList_toList, decode_threeLeaves (Duration.ofText?_text _ hage)
    (Duration.ofText?_text _ hinterval)]
  rfl

/-- Durations survive saving, up to the longest ones: an overflow would make the reading fail. The file
is one that can be loaded whatever the namespace is, and the namespace is read as it was if it is on
one line. -/
theorem durations_survive_saving (s : Settings) (hage : s.maxCacheAge.nanos < Duration.limit)
    (hinterval : s.clientCheckInterval.nanos < Duration.limit) (parent : Entry) (hparent : parent ≠ .file) :
    ∃ text loaded, s.save parent = .ok text ∧ ofFile (some (encode text)) = .ok loaded ∧
      loaded.maxCacheAge = s.maxCacheAge ∧ loaded.clientCheckInterval = s.clientCheckInterval ∧
      ('\n' ∉ s.secretNamespace.toList → loaded = s) := by
  obtain ⟨ns, hread, hns⟩ := ofText_toText_of_nanos_lt s hage hinterval
  refine ⟨s.toText, { s with secretNamespace := ns }, ?_, ?_, rfl, rfl, fun h => by rw [hns h]⟩
  · cases parent with
    | file => exact absurd rfl hparent
    | absent => rfl
    | directory => rfl
  · simp only [ofFile, decodeUtf8_encode, hread]

/-- Settings with the longest durations there are. -/
def longest : Settings where
  maxCacheAge := ⟨Duration.limit - 1⟩
  clientCheckInterval := ⟨Duration.limit - 1⟩

theorem longest_survive_saving :
    ∃ text, longest.save .absent = .ok text ∧ ofFile (some (encode text)) = .ok longest := by
  obtain ⟨text, loaded, hsave, hload, -, -, hloaded⟩ :=
    durations_survive_saving longest (by decide) (by decide) .absent (by decide)
  exact ⟨text, hsave, hloaded (by decide) ▸ hload⟩

end Settings
end ClusterPackages
