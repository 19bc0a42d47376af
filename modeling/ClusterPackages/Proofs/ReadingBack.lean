import ClusterPackages.Manifest
import ClusterPackages.Proofs.ValueOrder
import Mathlib.Data.List.Pairwise
import Mathlib.Data.List.Perm.Basic

/-! Values that are read back from the tree they are written as. A codec restores a value if it reads
it from that tree, with the entries of each object as they are written or sorted. A record does so
if each field puts back its own part, whatever is there already, and the parts can be put back in
any order. -/

namespace ClusterPackages

/-- The place of a tree that stands for itself. -/
def Context.tree : Context := ⟨.tree, [], 0, none⟩

theorem Context.inside_tree : Context.tree.inside = pure Context.tree := rfl

/-- A tree that keeps a written value: its entries stand as they were written, or sorted. -/
def Value.IsTreeOf (t v : Value) : Prop := t = v ∨ t = v.sorted

namespace Value

theorem isTreeOf_self (v : Value) : v.IsTreeOf v := .inl rfl

theorem isTreeOf_sorted (v : Value) : v.sorted.IsTreeOf v := .inr rfl

theorem IsTreeOf.eq_of_isSorted {t v : Value} (h : t.IsTreeOf v) (hv : v.IsSorted) : t = v :=
  h.elim id fun ht => ht.trans hv.sorted_eq

theorem IsTreeOf.exists_list {t : Value} {vs : List Value} (h : t.IsTreeOf (.list vs)) :
    ∃ ts, t = .list ts ∧ List.Forall₂ IsTreeOf ts vs := by
  rcases h with rfl | rfl
  · exact ⟨vs, rfl, List.forall₂_same.2 fun v _ => isTreeOf_self v⟩
  · refine ⟨vs.map sorted, sorted_list vs, List.forall₂_map_left_iff.2 ?_⟩
    exact List.forall₂_same.2 fun v _ => isTreeOf_sorted v

theorem IsTreeOf.exists_object {t : Value} {es : List (String × Value)} (h : t.IsTreeOf (.object es))
    (hes : (es.map Prod.fst).Nodup) :
    ∃ arrange : Value → Value, (∀ v, (arrange v).IsTreeOf v) ∧
      ∃ ts, t = .object ts ∧ List.Perm ts (es.map fun e => (e.1, arrange e.2)) := by
  rcases h with rfl | rfl
  · exact ⟨id, isTreeOf_self, es, rfl, by simp⟩
  · refine ⟨sorted, isTreeOf_sorted, _, sorted_object es, TextMap.ofEntries_perm ?_⟩
    simpa [List.map_map, Function.comp_def] using hes

theorem IsTreeOf.ne_null {t v : Value} (h : t.IsTreeOf v) (hv : v ≠ .null) : t ≠ .null := by
  rcases h with rfl | rfl
  · exact hv
  · cases v with
    | null => exact absurd rfl hv
    | _ => simp [sorted, toNode, Node.toValue, Node.text]

theorem resolve_toNode (ctx : Context) (v : Value) : ctx.resolve v.toNode = pure v.toNode := by
  cases v <;> rfl

theorem text_toNode (s : String) : Decoder.text .tree (.text s) = pure s := rfl

/-! ### Trees are settled -/

mutual
theorem settleWith_toNode (follow : Decoder Node) :
    ∀ v : Value, Decoder.settleWith follow .tree v.toNode = pure v.toNode
  | .null | .bool _ | .int _ | .float _ | .text _ => rfl
  | .list vs => by
    rw [toNode, Decoder.settleWith, if_neg (by decide), Context.inside_tree, pure_bind,
      settleItems_toNodes follow vs, pure_bind]
  | .object es => by
    rw [toNode, Decoder.settleWith, if_neg (by decide), Context.inside_tree, pure_bind,
      settleEntries_toEntries follow es, pure_bind]

theorem settleItems_toNodes (follow : Decoder Node) :
    ∀ vs : List Value, Decoder.settleItems follow .tree (toNodes vs) = pure (toNodes vs)
  | [] => rfl
  | v :: vs => by
    rw [toNodes, Decoder.settleItems, settleWith_toNode follow v, pure_bind,
      settleItems_toNodes follow vs, pure_bind]

theorem settleEntries_toEntries (follow : Decoder Node) :
    ∀ es : List (String × Value),
      Decoder.settleEntries follow .tree (toEntries es) = pure (toEntries es)
  | [] => rfl
  | (k, v) :: es => by
    rw [toEntries, Decoder.settleEntries, text_toNode, pure_bind, settleWith_toNode follow v,
      pure_bind, settleEntries_toEntries follow es, pure_bind]
end

theorem settle_toNode (v : Value) : Decoder.settle .tree v.toNode = pure v.toNode := by
  rw [Decoder.settle, Decoder.settleBehind, resolve_toNode, pure_bind, settleWith_toNode]

end Value

open Value

/-! ## Codecs -/

/-- The codec reads a value back from each tree that keeps it. -/
structure Codec.Restores {α : Type} (c : Codec α) (x : α) : Prop where
  hasDistinctNames : (c.encode x).HasDistinctNames
  decode_eq : ∀ {t : Value}, t.IsTreeOf (c.encode x) → c.decode .tree t.toNode = pure x

namespace Codec

variable {α : Type}

theorem Restores.bind_eq {c : Codec α} {x : α} (h : c.Restores x) {t : Value}
    (ht : t.IsTreeOf (c.encode x)) {β : Type} (k : α → Decode β) :
    c.decode .tree t.toNode >>= k = k x := by
  rw [h.decode_eq ht, pure_bind]

theorem restores_text (s : String) : Codec.text.Restores s where
  hasDistinctNames := by simp [text, HasDistinctNames]
  decode_eq := by
    rintro t (rfl | rfl) <;> rfl

theorem restores_scope (s : PackageScope) : PackageScope.codec.Restores s where
  hasDistinctNames := by simp [PackageScope.codec, HasDistinctNames]
  decode_eq := by
    rintro t (rfl | rfl) <;> cases s <;> rfl

theorem restores_int32 {n : Int} (h : -2147483648 ≤ n ∧ n ≤ 2147483647) : Codec.int32.Restores n where
  hasDistinctNames := by simp [int32, HasDistinctNames]
  decode_eq := by
    have hread : Decoder.int (-2147483648) 2147483647 .tree (.atom (.int n)) = pure n := by
      change (if -2147483648 ≤ n ∧ n ≤ 2147483647 then pure n else Decode.fail .malformed) = _
      exact if_pos h
    rintro t (rfl | rfl) <;> exact hread

theorem restores_raw {v : Value} (h : v.IsSorted) : Codec.raw.Restores v where
  hasDistinctNames := h.hasDistinctNames
  decode_eq := by
    intro t ht
    obtain rfl := ht.eq_of_isSorted h
    change Decoder.raw .tree t.toNode = _
    rw [Decoder.raw, settle_toNode, pure_bind]
    exact congrArg pure h.sorted_eq

theorem list_toNode (d : Decoder α) (ts : List Value) :
    Decoder.list d .tree (Value.list ts).toNode = Decoder.items d .tree (toNodes ts) := rfl

theorem items_toNodes {c : Codec α} {xs : List α} (h : ∀ x ∈ xs, c.Restores x) {ts : List Value}
    (hts : List.Forall₂ IsTreeOf ts (xs.map c.encode)) :
    Decoder.items c.decode .tree (toNodes ts) = pure xs := by
  induction xs generalizing ts with
  | nil =>
    cases hts
    rfl
  | cons x xs ih =>
    obtain _ | @⟨t, -, ts, -, ht, hts⟩ := hts
    rw [toNodes, Decoder.items, (h x List.mem_cons_self).decode_eq ht, pure_bind,
      ih (fun x hx => h x (List.mem_cons_of_mem _ hx)) hts, pure_bind]

theorem restores_list {c : Codec α} {xs : List α} (h : ∀ x ∈ xs, c.Restores x) :
    (Codec.list c).Restores xs where
  hasDistinctNames := by
    rw [list, HasDistinctNames, haveDistinctNames_iff]
    exact List.forall_mem_map.2 fun x hx => (h x hx).hasDistinctNames
  decode_eq := by
    intro t ht
    obtain ⟨ts, rfl, hts⟩ := ht.exists_list
    exact (list_toNode c.decode ts).trans (items_toNodes h hts)

theorem entries_toEntries (m : List (String × Value)) (h : ∀ e ∈ m, e.2.IsSorted) :
    Decoder.entries Decoder.raw .tree (toEntries m) = pure m := by
  induction m with
  | nil => rfl
  | cons e m ih =>
    obtain ⟨he, hm⟩ := List.forall_mem_cons.1 h
    have hv : Decoder.raw .tree e.2.toNode = pure e.2 :=
      (restores_raw he).decode_eq (isTreeOf_self e.2)
    rw [toEntries, Decoder.entries, text_toNode, pure_bind, hv, pure_bind, ih hm, pure_bind]

theorem restores_map_raw {m : TextMap Value} (h : (Value.object m).IsSorted) :
    (Codec.map .raw).Restores m := by
  have hm := h
  rw [IsSorted] at hm
  have hencode : (Codec.map .raw).encode m = .object m := by simp [map, raw]
  refine ⟨hencode ▸ h.hasDistinctNames, fun {t} ht => ?_⟩
  rw [hencode] at ht
  obtain rfl := ht.eq_of_isSorted h
  change Decoder.entries Decoder.raw .tree (toEntries m) >>= (fun es => pure (TextMap.ofEntries es)) = _
  rw [entries_toEntries m (entriesAreSorted_iff.1 hm.2), pure_bind,
    TextMap.ofEntries_of_isSorted hm.1]

end Codec

/-! ## Fields -/

variable {σ α : Type}

/-- What a record needs of a field to get `x` back: it writes nothing with names twice, reading what
it wrote puts back its part of `x`, and it leaves out only what is there at first. -/
structure Field.Restores (f : Field σ) (x first : σ) (restore : σ → σ) : Prop where
  hasDistinctNames : ∀ {v : Value}, f.write x = some v → v.HasDistinctNames
  read_eq : ∀ {v t : Value}, f.write x = some v → t.IsTreeOf v → ∀ y,
    f.read .tree t.toNode y = pure (restore y)
  omitted : f.write x = none → f.isRequired = false ∧ restore first = first

namespace Field

variable {name : String} {c : Codec α} {get : σ → α} {set : α → σ → σ} {x first : σ}

theorem restores_mandatory (h : c.Restores (get x)) :
    (mandatory name c get set).Restores x first (set (get x)) where
  hasDistinctNames := by
    rintro v ⟨⟩
    exact h.hasDistinctNames
  read_eq := by
    rintro v t ⟨⟩ ht y
    exact h.bind_eq ht _
  omitted := by
    rintro ⟨⟩

theorem restores_always (h : c.Restores (get x)) :
    (always name c get set).Restores x first (set (get x)) where
  hasDistinctNames := by
    rintro v ⟨⟩
    exact h.hasDistinctNames
  read_eq := by
    rintro v t ⟨⟩ ht y
    exact h.bind_eq ht _
  omitted := by
    rintro ⟨⟩

theorem restores_omitIf {isEmpty : α → Bool} (h : c.Restores (get x))
    (hempty : isEmpty (get x) = true → set (get x) first = first) :
    (omitIf isEmpty name c get set).Restores x first (set (get x)) where
  hasDistinctNames := by
    intro v hv
    obtain ⟨-, hv⟩ := Option.ite_none_left_eq_some.1 hv
    obtain rfl := Option.some.inj hv
    exact h.hasDistinctNames
  read_eq := by
    intro v t hv ht y
    obtain ⟨-, hv⟩ := Option.ite_none_left_eq_some.1 hv
    obtain rfl := Option.some.inj hv
    exact h.bind_eq ht _
  omitted := by
    intro hv
    rw [omitIf, ite_eq_left_iff] at hv
    exact ⟨rfl, hempty (by simpa using hv)⟩

theorem option_toNode (d : Decoder α) {t : Value} (h : t ≠ .null) :
    Decoder.option d .tree t.toNode = some <$> d .tree t.toNode := by
  cases t with
  | null => contradiction
  | _ => rfl

theorem restores_optional {get : σ → Option α} {set : Option α → σ → σ}
    (h : ∀ a ∈ get x, c.Restores a ∧ c.encode a ≠ .null) (hnone : set none first = first) :
    (optional name c get set).Restores x first (set (get x)) where
  hasDistinctNames := by
    intro v hv
    obtain ⟨a, ha, rfl⟩ := Option.map_eq_some_iff.1 hv
    exact (h a ha).1.hasDistinctNames
  read_eq := by
    intro v t hv ht y
    obtain ⟨a, ha, rfl⟩ := Option.map_eq_some_iff.1 hv
    obtain ⟨hc, hnull⟩ := h a ha
    change Decoder.option c.decode .tree t.toNode >>= (fun a => pure (set a y)) = _
    rw [option_toNode c.decode (ht.ne_null hnull), hc.decode_eq ht, map_pure, pure_bind, ha]
  omitted := by
    intro hv
    rw [Option.map_eq_none_iff.1 hv]
    exact ⟨rfl, hnone⟩

theorem restores_textField {get : σ → String} {set : String → σ → σ} (hempty : set "" first = first) :
    (omitIf (· == "") name .text get set).Restores x first (set (get x)) :=
  restores_omitIf (Codec.restores_text _) fun h => (beq_iff_eq.1 h).symm ▸ hempty

theorem restores_listField {get : σ → List α} {set : List α → σ → σ}
    (h : ∀ a ∈ get x, c.Restores a) (hempty : set [] first = first) :
    (omitIf List.isEmpty name (.list c) get set).Restores x first (set (get x)) :=
  restores_omitIf (Codec.restores_list h) fun he => (List.isEmpty_iff.1 he).symm ▸ hempty

end Field

/-! ## Records -/

namespace Record

variable {fields : List (Field σ)} {x first : σ}

/-- The entries that the fields write. -/
def written (fields : List (Field σ)) (x : σ) : List (String × Value) :=
  fields.filterMap fun f => (f.write x).map fun v => (f.name, v)

theorem keys_written_sublist (fields : List (Field σ)) (x : σ) :
    ((written fields x).map Prod.fst).Sublist (fields.map Field.name) := by
  induction fields with
  | nil => exact .slnil
  | cons f fs ih =>
    rw [written, List.filterMap_cons]
    cases f.write x with
    | none => exact ih.cons _
    | some v => exact ih.cons_cons _

/-- The fields put back their parts of `x`, and do not stand in each other's way. -/
structure Restores (fields : List (Field σ)) (x first : σ) : Prop where
  nodup_names : (fields.map Field.name).Nodup
  parts : ∃ restores : List (σ → σ),
    List.Forall₂ (fun f r => f.Restores x first r) fields restores ∧
    List.Pairwise (fun r s => ∀ y, r (s y) = s (r y)) restores ∧
    restores.foldl (fun y r => r y) first = x

/-- An entry is read as a field, whose part it puts back. -/
def PutsBack (fields : List (Field σ)) (e : String × Value) (restore : σ → σ) : Prop :=
  ∃ f ∈ fields, f.name = e.1 ∧ ∀ y, f.read .tree e.2.toNode y = pure (restore y)

/-- What is written puts back some of the parts; the others are there at first. -/
theorem exists_putsBack {fs : List (Field σ)} {restores : List (σ → σ)}
    (h : List.Forall₂ (fun f r => f.Restores x first r) fs restores) (hfs : fs ⊆ fields)
    {arrange : Value → Value} (harrange : ∀ v, (arrange v).IsTreeOf v) :
    ∃ present omitted : List (σ → σ), (omitted ++ present).Perm restores ∧
      List.Forall₂ (PutsBack fields) ((written fs x).map fun e => (e.1, arrange e.2)) present ∧
      ∀ r ∈ omitted, r first = first := by
  induction h with
  | nil => exact ⟨[], [], .nil, .nil, by simp⟩
  | @cons f r fs restores hf _ ih =>
    obtain ⟨hmem, hfs⟩ := List.cons_subset.1 hfs
    obtain ⟨present, omitted, hperm, hpresent, homitted⟩ := ih hfs
    cases hv : f.write x with
    | none =>
      refine ⟨present, r :: omitted, hperm.cons r, ?_, List.forall_mem_cons.2 ⟨(hf.omitted hv).2, homitted⟩⟩
      rw [written, List.filterMap_cons, hv]
      exact hpresent
    | some v =>
      refine ⟨r :: present, omitted, List.perm_middle.trans (hperm.cons r), ?_, homitted⟩
      rw [written, List.filterMap_cons, hv]
      exact .cons ⟨f, hmem, rfl, hf.read_eq hv (harrange v)⟩ hpresent

theorem exists_restores {fs : List (Field σ)} {restores : List (σ → σ)}
    (h : List.Forall₂ (fun f r => f.Restores x first r) fs restores) {f : Field σ} (hf : f ∈ fs) :
    ∃ r, f.Restores x first r := by
  induction h with
  | nil => cases hf
  | cons hr _ ih => exact (List.mem_cons.1 hf).elim (fun heq => ⟨_, heq ▸ hr⟩) ih

theorem find?_name {fs : List (Field σ)} (h : (fs.map Field.name).Nodup) {f : Field σ} (hf : f ∈ fs) :
    fs.find? (·.name == f.name) = some f := by
  induction fs with
  | nil => cases hf
  | cons g fs ih =>
    obtain ⟨hg, hfs⟩ := List.nodup_cons.1 h
    rcases List.mem_cons.1 hf with rfl | hf
    · exact List.find?_cons_of_pos (beq_self_eq_true _)
    · have hne : g.name ≠ f.name := fun heq => hg (heq ▸ List.mem_map_of_mem hf)
      rw [List.find?_cons_of_neg (by simpa using hne)]
      exact ih hfs hf

theorem readEntries_toEntries (rules : RecordRules) (hnames : (fields.map Field.name).Nodup)
    {es : List (String × Value)} {restores : List (σ → σ)}
    (h : List.Forall₂ (PutsBack fields) es restores) (hes : (es.map Prod.fst).Nodup)
    (seen : List String) (hseen : ∀ k ∈ es.map Prod.fst, k ∉ seen) (y : σ) :
    readEntries rules fields .tree seen y (toEntries es) =
      pure ((es.map Prod.fst).reverse ++ seen, restores.foldl (fun y r => r y) y) := by
  induction h generalizing seen y with
  | nil => rfl
  | @cons e r es restores he _ ih =>
    obtain ⟨f, hf, hname, hread⟩ := he
    obtain ⟨hnew, hes⟩ := List.nodup_cons.1 hes
    obtain ⟨he, hrest⟩ := List.forall_mem_cons.1 hseen
    have hfind : fields.find? (·.name == e.1) = some f := hname ▸ find?_name hnames hf
    have hcontains : seen.contains e.1 = false := by simpa using he
    rw [toEntries, readEntries, text_toNode, pure_bind]
    simp only [hfind, hcontains, Bool.and_false, Bool.false_eq_true, if_false]
    rw [hread, pure_bind, ih hes (e.1 :: seen) (fun k hk => ?_)]
    · simp
    · rw [List.mem_cons, not_or]
      exact ⟨fun heq => hnew (heq ▸ hk), hrest k hk⟩

theorem missing?_eq_none (seen : List String)
    (h : ∀ f ∈ fields, f.isRequired = true → f.name ∈ seen) : missing? fields seen = none := by
  rw [missing?, Option.map_eq_none_iff, List.find?_eq_none]
  intro f hf
  simpa using h f hf

theorem mem_keys_written {f : Field σ} (hf : f ∈ fields) {v : Value} (hv : f.write x = some v) :
    f.name ∈ (written fields x).map Prod.fst :=
  List.mem_map.2 ⟨(f.name, v), List.mem_filterMap.2 ⟨f, hf, by rw [hv]; rfl⟩, rfl⟩

namespace Restores

theorem nodup_keys (h : Restores fields x first) : ((written fields x).map Prod.fst).Nodup :=
  h.nodup_names.sublist (keys_written_sublist fields x)

/-- What is written is read back, in any order. -/
theorem fromEntries_eq (h : Restores fields x first) (rules : RecordRules) {arrange : Value → Value}
    (harrange : ∀ v, (arrange v).IsTreeOf v) {ts : List (String × Value)}
    (hts : ts.Perm ((written fields x).map fun e => (e.1, arrange e.2))) :
    fromEntries rules fields first .tree (toEntries ts) = pure x := by
  obtain ⟨restores, hparts, hcommute, hwhole⟩ := h.parts
  obtain ⟨present, omitted, hperm, hpresent, homitted⟩ :=
    exists_putsBack hparts (List.Subset.refl fields) harrange
  obtain ⟨found, hfound, hfoundperm⟩ := List.perm_comp_forall₂ hts hpresent
  have hkeys : (ts.map Prod.fst).Perm ((written fields x).map Prod.fst) := by
    simpa [List.map_map, Function.comp_def] using hts.map Prod.fst
  have hread := readEntries_toEntries rules h.nodup_names hfound (hkeys.nodup_iff.2 h.nodup_keys) []
    (by simp) first
  -- All parts put back, those left out first, are the parts found.
  have hsame : found.foldl (fun y r => r y) first = x := by
    have hfirst : omitted.foldl (fun y r => r y) first = first := by
      clear hperm
      induction omitted with
      | nil => rfl
      | cons r rs ih =>
        obtain ⟨hr, hrs⟩ := List.forall_mem_cons.1 homitted
        rw [List.foldl_cons, hr, ih hrs]
    have hall : (omitted ++ found).Perm restores := (hfoundperm.append_left omitted).trans hperm
    have hcomm := hcommute.forall_of_forall_of_flip (fun r _ y => rfl)
      (hcommute.imp fun h y => (h y).symm)
    rw [← hwhole, ← hall.foldl_eq' (fun r hr s hs y => ?_), List.foldl_append, hfirst]
    exact (hcomm (hall.mem_iff.1 hr) (hall.mem_iff.1 hs) y).symm
  have hmissing : missing? fields ((ts.map Prod.fst).reverse ++ []) = none := by
    refine missing?_eq_none _ fun f hf hrequired => ?_
    obtain ⟨r, hr⟩ := exists_restores hparts hf
    cases hv : f.write x with
    | none => simp [(hr.omitted hv).1] at hrequired
    | some v => simpa using hkeys.mem_iff.2 (mem_keys_written hf hv)
  rw [fromEntries, hread, pure_bind, hsame]
  dsimp only
  rw [hmissing]

theorem decode_eq (h : Restores fields x first) (rules : RecordRules) {t : Value}
    (ht : t.IsTreeOf (encode fields x)) : decode rules fields first .tree t.toNode = pure x := by
  obtain ⟨arrange, harrange, ts, rfl, hts⟩ := ht.exists_object h.nodup_keys
  exact h.fromEntries_eq rules harrange hts

theorem entriesHaveDistinctNames (h : Restores fields x first) :
    EntriesHaveDistinctNames (written fields x) := by
  refine entriesHaveDistinctNames_iff.2 fun e he => ?_
  obtain ⟨f, hf, hv⟩ := List.mem_filterMap.1 he
  obtain ⟨v, hwrite, rfl⟩ := Option.map_eq_some_iff.1 hv
  obtain ⟨restores, hparts, -⟩ := h.parts
  obtain ⟨r, hr⟩ := exists_restores hparts hf
  exact hr.hasDistinctNames hwrite

theorem codec (h : Restores fields x first) (rules : RecordRules) :
    (Codec.record rules fields first).Restores x where
  hasDistinctNames := by
    change (Value.object (written fields x)).HasDistinctNames
    rw [HasDistinctNames]
    exact ⟨h.nodup_keys, h.entriesHaveDistinctNames⟩
  decode_eq := h.decode_eq rules

end Restores
end Record
end ClusterPackages
