import SchemaDesign.Proofs.Edit.PropagationRounds

/-!
# Completing the holder of a new relationship

Creating a relationship maps the draft's provider columns into it one after another, and an
identifying one then maps every key column of the provider that the draft left out, onto new
holder columns with fresh ids. Each mapping reuses a column the holder had, or appends a new one
that mirrors the provider column.

`Table.Completes d max C P R T` says what the holder `T` is at every point of that: the table `C`
it started as, with the relationship `R` of the draft after its own relationships; `C`'s columns
first, as they were, then one new column for each mapping of `R` onto a column `C` lacked, in
mapping order, each typed like the provider column it references and named as the draft says or
`<provider>_<column>` made unique among the names of the columns before it (`Table.mirrorAt`).

- `Table.Completes.attachKey`: mapping one more provider column keeps it;
- `EditM.attachDrafts_completes` and `EditM.attachMissing_completes`: so do the two loops of
  `attachForeignKey` runs, over the draft's mappings and over the provider's key columns the
  draft leaves out, each of those onto a fresh column;
- `EditM.createRelationship_identifies`: on an accepted snapshot, a successful creation of an
  identifying relationship leaves the holder identifying by it (`Table.Identifies`): completed,
  with the holder columns in its key, before the new key columns propagate.
-/

namespace SchemaDesign

/-- The relationship a draft creates, before any mapping. -/
def RelationshipDraft.bare (d : RelationshipDraft) : Relationship :=
  ⟨d.id, d.fkTableId, d.pkTableId, d.name, d.kind, d.cardinality, d.onDelete, d.onUpdate, []⟩

/-- The name the draft gives the holder column `c`: that of the first mapping onto `c`, if it
names it. -/
def RelationshipDraft.givenName (d : RelationshipDraft) (c : Id) : Option String :=
  (d.columns.find? (·.fkColumnId = c)).bind (·.fkColumnName)

/-- The holder column made at place `n` for a mapping onto the provider column `source`: it
mirrors `source` and is named `given`, or else `<provider>_<column>` made unique among the names
before it. -/
def Table.mirrorAt (t : Table) (max : Nat) (P : Table) (source : Column) (id : Id)
    (given : Option String) (n : Nat) : Column :=
  { mirrorColumn source id t.id (given.getD (uniqueName (sanitize P.name ++ "_" ++ sanitize source.name)
      max ((t.columns.take n).map (·.name)))) with ordinalPosition := n + 1 }

theorem Table.mirrorAt_congr {t t' : Table} (hid : t'.id = t.id) {n : Nat}
    (htake : t'.columns.take n = t.columns.take n) (max : Nat) (P : Table) (source : Column)
    (id : Id) (given : Option String) :
    t'.mirrorAt max P source id given n = t.mirrorAt max P source id given n := by
  simp only [Table.mirrorAt, hid, htake]

@[simp]
theorem Relationship.appendMapping_fkColumnIds (spec : FkSpec) (r : Relationship) :
    (r.appendMapping spec).fkColumnIds = r.fkColumnIds ++ [spec.fkColumnId] := by
  simp [Relationship.appendMapping, Relationship.fkColumnIds]

@[simp]
theorem Table.attachKey_name {max : Nat} {name : String} {source : Column} {rid : Id}
    {spec : FkSpec} {t : Table} : (t.attachKey max name source rid spec).name = t.name := by
  unfold Table.attachKey
  split <;> rfl

/-- The holder `T` while the relationship `R` of the draft `d` is built in it from `C`: `C`'s
columns first, then one column made by `Table.mirrorAt` for each mapping of `R` onto a column `C`
lacks, in mapping order. -/
structure Table.Completes (T : Table) (d : RelationshipDraft) (max : Nat) (C P : Table)
    (R : Relationship) : Prop where
  id : T.id = C.id
  name : T.name = C.name
  relationships : T.relationships = C.relationships ++ [R]
  bare : R = { d.bare with columns := R.columns }
  numbered : Numbered (·.seqNo) R.columns
  numberedColumns : Numbered (·.ordinalPosition) T.columns
  kept : T.columns.take C.columns.length = C.columns
  appended : (T.columns.drop C.columns.length).map (·.id) =
    R.fkColumnIds.filter (· ∉ C.columns.map (·.id))
  mirrors : ∀ n c, T.columns[n]? = some c → C.columns.length ≤ n →
    ∃ m ∈ R.columns, m.fkColumnId = c.id ∧ ∃ source, P.column? m.pkColumnId = some source ∧
      c = T.mirrorAt max P source c.id (d.givenName c.id) n

namespace Table.Completes

variable {d : RelationshipDraft} {max : Nat} {C P T : Table} {R : Relationship}

/-- Before any mapping: the table with the draft's relationship appended. -/
theorem start (hC : Numbered (·.ordinalPosition) C.columns) :
    ({ C with relationships := C.relationships ++ [d.bare] } : Table).Completes d max C P d.bare where
  id := rfl
  name := rfl
  relationships := rfl
  bare := rfl
  numbered := rfl
  numberedColumns := hC
  kept := List.take_length
  appended := by simp [RelationshipDraft.bare, Relationship.fkColumnIds, List.drop_length]
  mirrors n c hc hn := by
    have : C.columns.length ≤ n := hn
    rw [List.getElem?_eq_none this] at hc
    cases hc

/-- The relationship carries the draft's id, holder and provider. -/
theorem ends (h : T.Completes d max C P R) :
    R.id = d.id ∧ R.fkTableId = d.fkTableId ∧ R.pkTableId = d.pkTableId := by
  rw [h.bare]
  exact ⟨rfl, rfl, rfl⟩

theorem length_le (h : T.Completes d max C P R) : C.columns.length ≤ T.columns.length := by
  have hlen := congrArg List.length h.kept
  rw [List.length_take] at hlen
  omega

theorem columnIds_subset (h : T.Completes d max C P R) {c : Id} (hc : c ∈ C.columns.map (·.id)) :
    c ∈ T.columns.map (·.id) := by
  rw [← h.kept] at hc
  exact (List.take_sublist _ _).map _ |>.subset hc

theorem mem_fkColumnIds (h : T.Completes d max C P R) {c : Id} (hc : c ∈ T.columns.map (·.id))
    (hC : c ∉ C.columns.map (·.id)) : c ∈ R.fkColumnIds := by
  rw [← List.take_append_drop C.columns.length T.columns, List.map_append, List.mem_append,
    h.kept, h.appended] at hc
  exact (List.mem_filter.1 (hc.resolve_left hC)).1

theorem relationships_attach (h : T.Completes d max C P R) (hfresh : ∀ r ∈ C.relationships, r.id ≠ d.id)
    (spec : FkSpec) :
    updateFirst (·.id = d.id) (Relationship.appendMapping spec) T.relationships =
      C.relationships ++ [R.appendMapping spec] := by
  rw [h.relationships, updateFirst_append_of_forall _ fun r hr => by simpa using hfresh r hr]
  simp [updateFirst, h.ends.1]

/-- A mapping onto a column the holder has: the holder keeps its columns, and the column was one
of `C`'s, since `R` did not map it yet. -/
theorem attachKey_of_isSome (h : T.Completes d max C P R)
    (hfresh : ∀ r ∈ C.relationships, r.id ≠ d.id) {spec : FkSpec} {source : Column}
    (hfk : spec.fkColumnId ∉ R.fkColumnIds) (hsome : (T.column? spec.fkColumnId).isSome) :
    (T.attachKey max P.name source d.id spec).Completes d max C P (R.appendMapping spec) := by
  have hcols : (T.attachKey max P.name source d.id spec).columns = T.columns :=
    Table.attachKey_columns_of_isSome hsome
  have hold : spec.fkColumnId ∈ C.columns.map (·.id) := by
    by_contra hC
    obtain ⟨c, hc⟩ := Option.isSome_iff_exists.1 hsome
    have hmem : spec.fkColumnId ∈ T.columns.map (·.id) := by
      have hid : c.id = spec.fkColumnId := by simpa using List.find?_some hc
      exact hid ▸ List.mem_map_of_mem (List.mem_of_find?_eq_some hc)
    exact hfk (h.mem_fkColumnIds hmem hC)
  refine ⟨by rw [Table.attachKey_id, h.id], by rw [Table.attachKey_name, h.name], ?_, ?_, ?_, ?_,
    ?_, ?_, ?_⟩
  · rw [Table.attachKey_relationships, h.relationships_attach hfresh]
  · simp only [Relationship.appendMapping]
    rw [h.bare]
  · exact h.numbered.append_singleton rfl
  · rw [hcols]
    exact h.numberedColumns
  · rw [hcols]
    exact h.kept
  · have hp : decide (spec.fkColumnId ∉ C.columns.map (·.id)) = false := by simpa using hold
    rw [hcols, h.appended, Relationship.appendMapping_fkColumnIds, List.filter_append,
      List.filter_singleton, hp, cond_false, List.append_nil]
  · intro n c hc hn
    rw [hcols] at hc
    obtain ⟨m, hm, hmc, source', hsource', hcm⟩ := h.mirrors n c hc hn
    refine ⟨m, ?_, hmc, source', hsource', ?_⟩
    · simp only [Relationship.appendMapping, List.mem_append]
      exact .inl hm
    · have htake : (T.attachKey max P.name source d.id spec).columns.take n = T.columns.take n := by
        rw [hcols]
      rw [Table.mirrorAt_congr Table.attachKey_id htake]
      exact hcm

/-- A mapping onto a column the holder lacks: the column is appended, numbered next, and made by
`Table.mirrorAt` from the provider column. -/
theorem attachKey_of_none (h : T.Completes d max C P R)
    (hfresh : ∀ r ∈ C.relationships, r.id ≠ d.id) {spec : FkSpec} {source : Column}
    (hsource : P.column? spec.pkColumnId = some source)
    (hname : d.givenName spec.fkColumnId = spec.fkColumnName)
    (hnone : T.column? spec.fkColumnId = none) :
    (T.attachKey max P.name source d.id spec).Completes d max C P (R.appendMapping spec) := by
  -- the holder's columns are numbered, so renumbering only numbers the new one
  set x := T.mirrorAt max P source spec.fkColumnId (d.givenName spec.fkColumnId) T.columns.length
  have hcols : (T.attachKey max P.name source d.id spec).columns = T.columns ++ [x] := by
    rw [Table.attachKey_columns_of_none hnone, renumber_append_singleton,
      renumber_eq_self (fun _ => rfl) h.numberedColumns]
    simp [x, Table.mirrorAt, mirrorColumn, hname, Table.columnNames]
  have hnotT : spec.fkColumnId ∉ T.columns.map (·.id) := fun hmem => by
    obtain ⟨c, hc, hcid⟩ := List.mem_map.1 hmem
    have := List.find?_eq_none.1 hnone c hc
    simp [hcid] at this
  have hnotC : spec.fkColumnId ∉ C.columns.map (·.id) := fun hmem => hnotT (h.columnIds_subset hmem)
  have hlen := h.length_le
  refine ⟨by rw [Table.attachKey_id, h.id], by rw [Table.attachKey_name, h.name], ?_, ?_, ?_, ?_,
    ?_, ?_, ?_⟩
  · rw [Table.attachKey_relationships, h.relationships_attach hfresh]
  · simp only [Relationship.appendMapping]
    rw [h.bare]
  · exact h.numbered.append_singleton rfl
  · rw [hcols]
    exact h.numberedColumns.append_singleton (by simp [x, Table.mirrorAt])
  · rw [hcols, List.take_append_of_le_length hlen]
    exact h.kept
  · have hp : decide (spec.fkColumnId ∉ C.columns.map (·.id)) = true := by simpa using hnotC
    rw [hcols, List.drop_append_of_le_length hlen, List.map_append, h.appended,
      Relationship.appendMapping_fkColumnIds, List.filter_append, List.filter_singleton, hp,
      cond_true]
    rfl
  · intro n c hc hn
    rw [hcols] at hc
    have htake : (T.attachKey max P.name source d.id spec).columns.take n = T.columns.take n := by
      rw [hcols]
      rcases Nat.lt_or_ge n (T.columns.length + 1) with hlt | hge
      · exact List.take_append_of_le_length (by omega)
      · rw [List.getElem?_eq_none (by simpa using hge)] at hc
        cases hc
    have hmirror : ∀ source', (T.attachKey max P.name source d.id spec).mirrorAt max P source' c.id
        (d.givenName c.id) n = T.mirrorAt max P source' c.id (d.givenName c.id) n :=
      fun source' => Table.mirrorAt_congr (by rw [Table.attachKey_id]) htake _ _ _ _ _
    simp only [hmirror]
    rcases Nat.lt_or_ge n T.columns.length with hlt | hge
    · -- a column made before: its mapping is still there
      rw [List.getElem?_append_left hlt] at hc
      obtain ⟨m, hm, hmc, source', hsource', hcm⟩ := h.mirrors n c hc hn
      refine ⟨m, ?_, hmc, source', hsource', hcm⟩
      simp only [Relationship.appendMapping, List.mem_append]
      exact .inl hm
    · -- the new column, for the new mapping
      rw [List.getElem?_append_right hge] at hc
      obtain ⟨hn', rfl⟩ : n - T.columns.length = 0 ∧ x = c := by
        simpa [List.getElem?_cons] using hc
      have hnlen : n = T.columns.length := by omega
      subst hnlen
      refine ⟨⟨spec.mappingId, spec.fkColumnId, spec.pkColumnId, R.columns.length + 1⟩, ?_,
        by simp [x, Table.mirrorAt, mirrorColumn], source, hsource, ?_⟩
      · simp [Relationship.appendMapping]
      · simp [x, Table.mirrorAt, mirrorColumn]

/-- Mapping one more provider column, onto a holder column `R` does not map yet, keeps the holder
completing. -/
theorem attachKey (h : T.Completes d max C P R) (hfresh : ∀ r ∈ C.relationships, r.id ≠ d.id)
    {spec : FkSpec} {source : Column} (hsource : P.column? spec.pkColumnId = some source)
    (hfk : spec.fkColumnId ∉ R.fkColumnIds) (hname : d.givenName spec.fkColumnId = spec.fkColumnName) :
    (T.attachKey max P.name source d.id spec).Completes d max C P (R.appendMapping spec) := by
  cases hcol : T.column? spec.fkColumnId with
  | none => exact h.attachKey_of_none hfresh hsource hname hcol
  | some c => exact h.attachKey_of_isSome hfresh hfk (by rw [hcol]; rfl)

end Table.Completes

/-! ## Mappings of the draft -/

/-- The mappings a relationship was given, as id, holder column and provider column. -/
def KeyMapping.ends (m : KeyMapping) : Id × Id × Id := (m.id, m.fkColumnId, m.pkColumnId)

/-- The mapping a draft asks for, as id, holder column and provider column. -/
def MappingDraft.ends (m : MappingDraft) : Id × Id × Id := (m.id, m.fkColumnId, m.pkColumnId)

theorem fkColumnIds_of_ends {R : Relationship} {ms : List MappingDraft}
    (h : R.columns.map KeyMapping.ends = ms.map MappingDraft.ends) :
    R.fkColumnIds = ms.map (·.fkColumnId) := by
  have := congrArg (List.map fun e => e.2.1) h
  simpa [List.map_map, Relationship.fkColumnIds, KeyMapping.ends, MappingDraft.ends,
    Function.comp_def] using this

theorem pkColumnIds_of_ends {R : Relationship} {ms : List MappingDraft}
    (h : R.columns.map KeyMapping.ends = ms.map MappingDraft.ends) :
    R.columns.map (·.pkColumnId) = ms.map (·.pkColumnId) := by
  have := congrArg (List.map fun e => e.2.2) h
  simpa [List.map_map, KeyMapping.ends, MappingDraft.ends, Function.comp_def] using this

theorem mapsPkColumn_of_ends {R : Relationship} {ms : List MappingDraft}
    (h : R.columns.map KeyMapping.ends = ms.map MappingDraft.ends) (k : Id) :
    R.mapsPkColumn k = decide (k ∈ ms.map (·.pkColumnId)) := by
  rw [Bool.eq_iff_iff, ← pkColumnIds_of_ends h]
  simp [Relationship.mapsPkColumn]

theorem RelationshipDraft.givenName_of_mem {d : RelationshipDraft}
    (hfks : (d.columns.map (·.fkColumnId)).Nodup) {m : MappingDraft} (hm : m ∈ d.columns) :
    d.givenName m.fkColumnId = m.fkColumnName := by
  have hfind : d.columns.find? (·.fkColumnId = m.fkColumnId) = some m :=
    find?_key_eq_of_mem hfks hm
  simp [RelationshipDraft.givenName, hfind]

theorem RelationshipDraft.givenName_of_not_mem {d : RelationshipDraft} {c : Id}
    (hc : c ∉ d.columns.map (·.fkColumnId)) : d.givenName c = none := by
  have hfind : d.columns.find? (·.fkColumnId = c) = none := by
    refine List.find?_eq_none.2 fun m hm hmc => hc ?_
    have hmc' : m.fkColumnId = c := by simpa using hmc
    exact hmc' ▸ List.mem_map_of_mem hm
  simp [RelationshipDraft.givenName, hfind]

/-! ## The holder in the snapshot -/

theorem updateFirst_updateFirst_of_imp {α : Type} {p : α → Bool} {f g : α → α}
    (hf : ∀ x, p x = true → p (f x) = true) :
    ∀ xs : List α, updateFirst p g (updateFirst p f xs) = updateFirst p (fun x => g (f x)) xs
  | [] => rfl
  | x :: xs => by
    by_cases hx : p x
    · simp [updateFirst, hx, hf x hx]
    · simp [updateFirst, hx, updateFirst_updateFirst_of_imp hf xs]

/-- Two changes of one table in a row, the first keeping the table's id, are one change. -/
theorem Database.updateTable_updateTable_of_id {db : Database} {sid tid : Id} {f g : Table → Table}
    (hf : ∀ t, t.id = tid → (f t).id = tid) :
    (db.updateTable sid tid f).updateTable sid tid g = db.updateTable sid tid (fun t => g (f t)) := by
  unfold Database.updateTable
  dsimp only
  rw [updateFirst_updateFirst_of_imp]
  · congr 2
    funext s
    dsimp only
    rw [updateFirst_updateFirst_of_imp (by simpa using hf)]
  · exact fun _ hx => hx

/-- Where the relationship of the draft `d` is built: schema `s` of `db`, whose tables have
distinct ids, with the holder `C` and the provider `P`, two different tables named by the draft;
no relationship of the schema has the draft's id, and `C`'s columns are numbered. -/
structure Database.Building (db : Database) (sid : Id) (s : Schema) (d : RelationshipDraft)
    (C P : Table) : Prop where
  schema : db.schema? sid = some s
  tableIds : (s.tables.map (·.id)).Nodup
  holder : C ∈ s.tables
  provider : P ∈ s.tables
  holderId : C.id = d.fkTableId
  providerId : P.id = d.pkTableId
  distinct : P.id ≠ C.id
  fresh : ∀ t ∈ s.tables, ∀ r ∈ t.relationships, r.id ≠ d.id
  numbered : Numbered (·.ordinalPosition) C.columns

namespace Database.Building

variable {db : Database} {sid : Id} {s : Schema} {d : RelationshipDraft} {C P : Table}

theorem table?_holder (hB : db.Building sid s d C P) : s.table? d.fkTableId = some C :=
  hB.holderId ▸ Schema.table?_of_mem hB.tableIds hB.holder

theorem table?_provider (hB : db.Building sid s d C P) : s.table? d.pkTableId = some P :=
  hB.providerId ▸ Schema.table?_of_mem hB.tableIds hB.provider

theorem findsHolder (hB : db.Building sid s d C P) : db.FindsTable sid d.fkTableId C :=
  ⟨s, hB.schema, hB.table?_holder⟩

theorem findsHolder_update (hB : db.Building sid s d C P) {T T' : Table} (hT : T.id = C.id) :
    (db.updateTable sid d.fkTableId (fun _ => T)).FindsTable sid d.fkTableId T' ↔ T' = T := by
  rw [Database.findsTable_updateTable fun _ _ => hT.trans hB.holderId]
  constructor
  · rintro ⟨t, -, rfl⟩
    rfl
  · rintro rfl
    exact ⟨C, hB.findsHolder, rfl⟩

/-- The holder changed, the snapshot still finds the provider as it was. -/
theorem findsProvider_update (hB : db.Building sid s d C P) {T P' : Table} (hT : T.id = C.id) :
    (db.updateTable sid d.fkTableId (fun _ => T)).FindsTable sid d.pkTableId P' ↔ P' = P := by
  rw [Database.findsTable_updateTable_of_ne (fun _ _ => hT.trans hB.holderId)
    (by rw [← hB.holderId, ← hB.providerId]; exact hB.distinct)]
  constructor
  · intro hP'
    exact hP'.unique ⟨s, hB.schema, hB.table?_provider⟩
  · rintro rfl
    exact ⟨s, hB.schema, hB.table?_provider⟩

/-- The relationship being built is found in the holder `T`, as `R`: no other table holds a
relationship with its id, nor do the holder's relationships before it. -/
theorem relationship?_update (hB : db.Building sid s d C P) {max : Nat} {T : Table}
    {R : Relationship} (hT : T.Completes d max C P R) {s' : Schema}
    (hs' : (db.updateTable sid d.fkTableId (fun _ => T)).schema? sid = some s') {found : Table × Relationship}
    (hfound : s'.relationship? d.id = some found) : found = (T, R) := by
  rw [Database.schema?_updateTable hB.schema, Option.some.injEq] at hs'
  subst hs'
  obtain ⟨holder, r⟩ := found
  obtain ⟨hmem, hfind⟩ := Schema.relationship?_spec hfound
  have hr : r.id = d.id := by simpa using List.find?_some hfind
  rcases mem_updateFirst hmem with hmem | ⟨_, -, rfl⟩
  · exact absurd hr (hB.fresh holder hmem r (List.mem_of_find?_eq_some hfind))
  · have hnone : C.relationships.find? (·.id = d.id) = none :=
      List.find?_eq_none.2 fun r' hr' => by simpa using hB.fresh C hB.holder r' hr'
    rw [hT.relationships, List.find?_append, hnone, Option.none_or] at hfind
    simp [hT.ends.1] at hfind
    rw [hfind]

end Database.Building

namespace EditM

variable {st st' : Session}

theorem relationship_run {sid rid : Id} {found : Table × Relationship}
    (h : (relationship sid rid).run st = .ok found st') :
    st' = st ∧ ∃ s, st.db.schema? sid = some s ∧ s.relationship? rid = some found := by
  unfold relationship at h
  obtain ⟨s, st₁, h₁, h₂⟩ := run_bind_ok h
  obtain ⟨rfl, hs⟩ := schema_run h₁
  split at h₂
  next found' hfound =>
    obtain ⟨rfl, rfl⟩ := pure_run h₂
    exact ⟨rfl, s, hs, hfound⟩
  next => cases h₂

theorem provider_run {sid tid : Id} {p : Table} (h : (provider sid tid).run st = .ok p st') :
    st' = st ∧ st.db.FindsTable sid tid p := by
  unfold provider at h
  obtain ⟨s, st₁, h₁, h₂⟩ := run_bind_ok h
  obtain ⟨rfl, hs⟩ := schema_run h₁
  split at h₂
  next p' hp =>
    obtain ⟨rfl, rfl⟩ := pure_run h₂
    exact ⟨rfl, s, hs, hp⟩
  next => cases h₂

theorem checkRelationshipName_run {sid tid : Id} {name : String} {exclude : Option Id} {u : Unit}
    (h : (checkRelationshipName sid tid name exclude).run st = .ok u st') : st' = st := by
  unfold checkRelationshipName at h
  obtain ⟨cfg, st₁, h₁, h₂⟩ := run_bind_ok h
  obtain ⟨rfl, rfl⟩ := config_run h₁
  cases hid : checkIdentifier name st₁.config.naming.relationship with
  | error rule => simp [hid] at h₂
  | ok =>
  simp only [hid] at h₂
  obtain ⟨t, st₃, h₃, h₄⟩ := run_bind_ok h₂
  obtain ⟨rfl, -⟩ := table_run h₃
  split at h₄
  · cases h₄
  · obtain ⟨-, rfl⟩ := pure_run h₄
    rfl

end EditM

namespace EditM

variable {db : Database} {sid : Id} {s : Schema} {d : RelationshipDraft} {C P : Table} {max : Nat}

/-- One mapping of the relationship being built, onto a holder column it does not map yet, keeps
the holder completing. -/
theorem attachForeignKey_completes (hB : db.Building sid s d C P) {st st' : Session} {T : Table}
    {R : Relationship} (hst : st.db = db.updateTable sid d.fkTableId (fun _ => T))
    (hmax : st.config.naming.column.max = max) (hT : T.Completes d max C P R) {spec : FkSpec}
    (hfk : spec.fkColumnId ∉ R.fkColumnIds)
    (hname : d.givenName spec.fkColumnId = spec.fkColumnName) {fk : Id}
    (hrun : (attachForeignKey sid d.fkTableId d.id d.pkTableId spec).run st = .ok fk st') :
    fk = spec.fkColumnId ∧ st'.config = st.config ∧ ∃ source,
      P.column? spec.pkColumnId = some source ∧
      st'.db = db.updateTable sid d.fkTableId (fun _ => T.attachKey max P.name source d.id spec) ∧
      (T.attachKey max P.name source d.id spec).Completes d max C P (R.appendMapping spec) := by
  obtain ⟨rfl, hcfg, P', source, H, hP', hsource, hH, -, -, hdb⟩ := attachForeignKey_run hrun
  rw [hst] at hP' hH
  obtain rfl := (hB.findsProvider_update hT.id).1 hP'
  obtain rfl := (hB.findsHolder_update hT.id).1 hH
  refine ⟨rfl, hcfg, source, hsource, ?_,
    hT.attachKey (hB.fresh C hB.holder) hsource hfk hname⟩
  rw [hdb, hst, hmax, Database.updateTable_updateTable_of_id fun _ _ => hT.id.trans hB.holderId]

/-- The draft's mappings, attached in order after those of `pre`: the holder keeps completing,
its constraints stay `C`'s, and the relationship maps the draft's mappings, in draft order. -/
theorem attachDrafts_completes (hB : db.Building sid s d C P)
    (hfks : (d.columns.map (·.fkColumnId)).Nodup) :
    ∀ (pre ms : List MappingDraft) (T : Table) (R : Relationship) (st st' : Session),
      d.columns = pre ++ ms → st.db = db.updateTable sid d.fkTableId (fun _ => T) →
      st.config.naming.column.max = max → T.Completes d max C P R →
      T.constraints = C.constraints → R.columns.map KeyMapping.ends = pre.map MappingDraft.ends →
      (ms.forM fun m => do let _ ← attachForeignKey sid d.fkTableId d.id d.pkTableId m.spec).run st =
        .ok () st' →
      ∃ T' R', st'.db = db.updateTable sid d.fkTableId (fun _ => T') ∧ st'.config = st.config ∧
        T'.Completes d max C P R' ∧ T'.constraints = C.constraints ∧
        R'.columns.map KeyMapping.ends = d.columns.map MappingDraft.ends
  | pre, [], T, R, st, st', hd, hst, _, hT, hk, hR, hrun => by
    obtain ⟨-, rfl⟩ := pure_run hrun
    exact ⟨T, R, hst, rfl, hT, hk, by rw [hR, hd, List.append_nil]⟩
  | pre, m :: ms, T, R, st, st', hd, hst, hmax, hT, hk, hR, hrun => by
    rw [List.forM_eq_forM, List.forM_cons] at hrun
    obtain ⟨_, st₁, h₁, h₂⟩ := run_bind_ok hrun
    obtain ⟨fk, st₀, h₀, h₀'⟩ := run_bind_ok h₁
    obtain ⟨-, rfl⟩ := pure_run h₀'
    -- the draft's holder columns are distinct, so `R` does not map this one yet
    have hfk : m.spec.fkColumnId ∉ R.fkColumnIds := by
      rw [fkColumnIds_of_ends hR]
      rw [hd, List.map_append, List.map_cons] at hfks
      exact fun hmem => (List.nodup_append.1 hfks).2.2 _ hmem _ List.mem_cons_self rfl
    have hname : d.givenName m.spec.fkColumnId = m.spec.fkColumnName :=
      RelationshipDraft.givenName_of_mem hfks (hd ▸ List.mem_append_right _ List.mem_cons_self)
    obtain ⟨-, hcfg, source, -, hdb, hT'⟩ := attachForeignKey_completes hB hst hmax hT hfk hname h₀
    obtain ⟨T', R', hdb', hcfg', hT'', hk', hR'⟩ := attachDrafts_completes hB hfks (pre ++ [m]) ms _ _
      st₀ st' (by rw [hd, List.append_assoc, List.singleton_append]) hdb (by rw [hcfg]; exact hmax)
      hT' (by rw [Table.attachKey_constraints, hk])
      (by simp [Relationship.appendMapping, hR, KeyMapping.ends, MappingDraft.ends, MappingDraft.spec])
      h₂
    exact ⟨T', R', hdb', hcfg'.trans hcfg, hT'', hk', hR'⟩

/-- The provider's key columns `ks`, each attached onto a fresh holder column: the holder keeps
completing, and the relationship gains one mapping for each, in order, onto a column `C` lacks. -/
theorem attachMissing_completes (hB : db.Building sid s d C P) :
    ∀ (ks : List Id) (T : Table) (R : Relationship) (st st' : Session),
      st.db = db.updateTable sid d.fkTableId (fun _ => T) → st.config.naming.column.max = max →
      T.Completes d max C P R → T.constraints = C.constraints → R.fkColumnIds.Nodup →
      (∀ c ∈ d.columns.map (·.fkColumnId), c ∈ R.fkColumnIds) →
      (ks.forM fun pk => do
        let _ ← attachForeignKey sid d.fkTableId d.id d.pkTableId (← freshSpec pk)).run st =
        .ok () st' →
      ∃ T' R' ms, st'.db = db.updateTable sid d.fkTableId (fun _ => T') ∧
        T'.Completes d max C P R' ∧ T'.constraints = C.constraints ∧ R'.fkColumnIds.Nodup ∧
        R'.columns = R.columns ++ ms ∧ ms.map (·.pkColumnId) = ks ∧
        ∀ m ∈ ms, m.fkColumnId ∉ C.columns.map (·.id) := by
  intro ks
  induction ks with
  | nil =>
    intro T R st st' hst _ hT hk hnd _ hrun
    obtain ⟨-, rfl⟩ := pure_run hrun
    exact ⟨T, R, [], hst, hT, hk, hnd, by simp, rfl, by simp⟩
  | cons pk ks ih =>
    intro T R st st' hst hmax hT hk hnd hsub hrun
    rw [List.forM_eq_forM, List.forM_cons] at hrun
    obtain ⟨_, st₁, h₁, h₂⟩ := run_bind_ok hrun
    obtain ⟨spec, st₀, h₀, h₀'⟩ := run_bind_ok h₁
    obtain ⟨hdb₀, hcfg₀, hpk, hnm, hfresh⟩ := freshSpec_run h₀
    obtain ⟨fk, st₂, h₃, h₄⟩ := run_bind_ok h₀'
    obtain ⟨-, rfl⟩ := pure_run h₄
    -- the fresh holder column is mentioned nowhere in the holder
    have hmentions : T.mentionedIds ⊆ st.db.mentionedIds := by
      rw [hst]
      exact ((hB.findsHolder_update hT.id).2 rfl).mentionedIds_subset
    have hfkR : spec.fkColumnId ∉ R.fkColumnIds := fun hmem => by
      obtain ⟨m, hm, hmfk⟩ := List.mem_map.1 hmem
      have hR : R ∈ T.relationships := by
        rw [hT.relationships]
        exact List.mem_append_right _ (List.mem_singleton_self R)
      exact hfresh (hmentions (hmfk ▸ Table.mentions_fkColumn hR hm))
    have hfkT : spec.fkColumnId ∉ T.columns.map (·.id) := fun hmem => by
      obtain ⟨c, hc, hcid⟩ := List.mem_map.1 hmem
      exact hfresh (hmentions (hcid ▸ Table.mentions_column hc))
    have hname : d.givenName spec.fkColumnId = spec.fkColumnName := by
      rw [hnm, RelationshipDraft.givenName_of_not_mem fun hmem => hfkR (hsub _ hmem)]
    obtain ⟨-, hcfg, source, -, hdb, hT'⟩ :=
      attachForeignKey_completes hB (hdb₀.trans hst) (by rw [hcfg₀]; exact hmax) hT hfkR hname h₃
    have hnd' : (R.appendMapping spec).fkColumnIds.Nodup := by
      rw [Relationship.appendMapping_fkColumnIds]
      exact List.nodup_append.2 ⟨hnd, List.nodup_singleton _,
        fun a ha b hb => by rw [List.mem_singleton.1 hb]; exact fun h => hfkR (h ▸ ha)⟩
    obtain ⟨T', R', ms, hdb', hT'', hk', hnd'', hR', hms, hnew⟩ :=
      ih _ _ st₂ st' hdb (by rw [hcfg, hcfg₀]; exact hmax) hT'
        (by rw [Table.attachKey_constraints, hk]) hnd'
        (fun c hc => by
          rw [Relationship.appendMapping_fkColumnIds]
          exact List.mem_append_left _ (hsub c hc))
        h₂
    refine ⟨T', R', ⟨spec.mappingId, spec.fkColumnId, spec.pkColumnId, R.columns.length + 1⟩ :: ms,
      hdb', hT'', hk', hnd'', by simp [hR', Relationship.appendMapping], by simp [hms, hpk], ?_⟩
    rintro m (_ | ⟨_, hm⟩)
    · exact fun hmem => hfkT (hT.columnIds_subset hmem)
    · exact hnew m hm

/-- A successful `completeIdentifying` attaches the provider key columns `R` does not map, puts
every holder column of `R` into the key, and propagates those that were no key columns of `C`. -/
theorem completeIdentifying_completes (hB : db.Building sid s d C P) {st st' : Session} {T : Table}
    {R : Relationship} (hst : st.db = db.updateTable sid d.fkTableId (fun _ => T))
    (hmax : st.config.naming.column.max = max) (hT : T.Completes d max C P R)
    (hk : T.constraints = C.constraints) (hnd : R.fkColumnIds.Nodup)
    (hsub : ∀ c ∈ d.columns.map (·.fkColumnId), c ∈ R.fkColumnIds)
    (hrun : (completeIdentifying sid d.id).run st = .ok () st') :
    ∃ (T' : Table) (R' : Relationship) (ms : List KeyMapping) (ks : List Constraint) (st₁ : Session),
      T'.Completes d max C P R' ∧ R'.columns = R.columns ++ ms ∧
      ms.map (·.pkColumnId) = P.keyColumns.filter (!R.mapsPkColumn ·) ∧
      (∀ m ∈ ms, m.fkColumnId ∉ C.columns.map (·.id)) ∧ R'.fkColumnIds.Nodup ∧
      (∀ c, ({ T' with constraints := ks } : Table).isKeyColumn c = true ↔
        C.isKeyColumn c = true ∨ c ∈ R'.fkColumnIds) ∧
      st₁.db = db.updateTable sid d.fkTableId (fun _ => { T' with constraints := ks }) ∧
      (R'.fkColumnIds.filter (!C.isKeyColumn ·) = [] → st' = st₁) ∧
      (R'.fkColumnIds.filter (!C.isKeyColumn ·) ≠ [] → ∃ n,
        (propagateKeys sid d.fkTableId (R'.fkColumnIds.filter (!C.isKeyColumn ·))).run st₁ =
          .ok n st') := by
  unfold completeIdentifying at hrun
  obtain ⟨found, st₁, h₁, h₂⟩ := run_bind_ok hrun
  obtain ⟨hst₁, s₁, hs₁, hfound⟩ := relationship_run h₁
  subst st₁
  rw [hst] at hs₁
  obtain rfl := hB.relationship?_update hT hs₁ hfound
  dsimp only at h₂
  obtain ⟨p, st₂, h₃, h₄⟩ := run_bind_ok h₂
  obtain ⟨hst₂, hp⟩ := provider_run h₃
  subst st₂
  have hRpk : R.pkTableId = d.pkTableId := hT.ends.2.2
  rw [hst, hRpk] at hp
  obtain rfl := (hB.findsProvider_update hT.id).1 hp
  obtain ⟨_, st₃, h₅, h₆⟩ := run_bind_ok h₄
  rw [hT.id, hB.holderId, hRpk] at h₅
  obtain ⟨T', R', ms, hdb₃, hT', hk', hnd', hR', hms, hnew⟩ :=
    attachMissing_completes hB _ T R st st₃ hst hmax hT hk hnd hsub h₅
  obtain ⟨found, st₄, h₇, h₈⟩ := run_bind_ok h₆
  obtain ⟨hst₄, s₄, hs₄, hfound₄⟩ := relationship_run h₇
  subst st₄
  rw [hdb₃] at hs₄
  obtain rfl := hB.relationship?_update hT' hs₄ hfound₄
  dsimp only at h₈
  obtain ⟨_, st₅, h₉, h₁₀⟩ := run_bind_ok h₈
  obtain ⟨t, ks, ht, hdb₅, hkeys⟩ := addToPrimaryKey_keys h₉
  rw [hdb₃, hT'.id, hB.holderId] at ht
  have htT := (hB.findsHolder_update hT'.id).1 ht
  subst t
  have hkey : ∀ c, T'.isKeyColumn c = C.isKeyColumn c := Table.isKeyColumn_congr hk'
  have hseeds : R'.fkColumnIds.filter (!T'.isKeyColumn ·) = R'.fkColumnIds.filter (!C.isKeyColumn ·) := by
    simp only [hkey]
  refine ⟨T', R', ms, ks, st₅, hT', hR', hms, hnew, hnd', fun c => by rw [hkeys, hkey], ?_, ?_, ?_⟩
  · rw [hdb₅, hdb₃, hT'.id, hB.holderId,
      Database.updateTable_updateTable_of_id fun _ _ => hT'.id.trans hB.holderId]
  all_goals rw [hseeds, hT'.id, hB.holderId] at h₁₀
  all_goals split at h₁₀
  · intro hnil
    simp [hnil] at *
  · intro _
    obtain ⟨-, rfl⟩ := pure_run h₁₀
    rfl
  · intro _
    obtain ⟨n, st₆, h₁₁, h₁₂⟩ := run_bind_ok h₁₀
    obtain ⟨-, rfl⟩ := pure_run h₁₂
    exact ⟨n, h₁₁⟩
  · intro hne
    simp_all

end EditM

/-! ## The relationship created -/

/-- The holder `T` once the identifying relationship `R` of the draft `d` is created in it: `R`
maps the draft's mappings, then the provider key columns the draft leaves out, onto columns `C`
lacks, and the key columns of `T` are those of `C` and the holder columns of `R`. -/
structure Table.Identifies (T : Table) (d : RelationshipDraft) (max : Nat) (C P : Table)
    (R : Relationship) : Prop where
  completes : T.Completes d max C P R
  drafted : (R.columns.take d.columns.length).map KeyMapping.ends = d.columns.map MappingDraft.ends
  completed : (R.columns.drop d.columns.length).map (·.pkColumnId) =
    P.keyColumns.filter (· ∉ d.columns.map (·.pkColumnId))
  fresh : ∀ m ∈ R.columns.drop d.columns.length, m.fkColumnId ∉ C.columns.map (·.id)
  distinct : R.fkColumnIds.Nodup
  keys : ∀ c, T.isKeyColumn c = true ↔ C.isKeyColumn c = true ∨ c ∈ R.fkColumnIds

theorem Table.Completes.withConstraints {T : Table} {d : RelationshipDraft} {max : Nat}
    {C P : Table} {R : Relationship} (h : T.Completes d max C P R) (ks : List Constraint) :
    ({ T with constraints := ks } : Table).Completes d max C P R :=
  ⟨h.id, h.name, h.relationships, h.bare, h.numbered, h.numberedColumns, h.kept, h.appended,
    h.mirrors⟩

/-- The checks `createRelationship` makes before it changes an accepted snapshot set up the
building of an identifying relationship: the holder and the provider are tables of the schema,
the relationship's id is fresh, and the provider does not reach the holder. -/
theorem Database.building_of_checks {db : Database} {sid : Id} {s : Schema} {d : RelationshipDraft}
    {C P : Table} (hv : db.validate = .ok ()) (hs : db.schema? sid = some s)
    (hC : s.table? d.fkTableId = some C) (hP : s.table? d.pkTableId = some P)
    (hfresh : db.usesId d.id = false) (hacyc : s.ensureAcyclic d.fkTableId d.pkTableId none = .ok ()) :
    db.Building sid s d C P ∧ ¬Relation.ReflTransGen s.DependsOn P.id C.id := by
  have hsm : s ∈ db.schemas := List.mem_of_find?_eq_some hs
  have hids := Database.tableIds_nodup (Database.labelledIds_nodup_of_validate hv) hsm
  obtain ⟨hCmem, hCid⟩ := Schema.mem_of_table? hC
  obtain ⟨hPmem, hPid⟩ := Schema.mem_of_table? hP
  have hnr : ¬Relation.ReflTransGen s.DependsOn P.id C.id := by
    rw [hCid, hPid]
    exact Schema.not_reaches_of_ensureAcyclic hids (fun _ _ _ _ _ => Option.some_ne_none _) hacyc
  refine ⟨⟨hs, hids, hCmem, hPmem, hCid, hPid, fun h => hnr (h ▸ .refl), fun t ht => ?_,
    (Database.gapless_of_validate hv s hsm C hCmem).columns⟩, hnr⟩
  exact Table.relationshipId_ne (Database.not_mem_table_ids hsm ht hfresh)

namespace EditM

variable {db : Database} {sid : Id} {d : RelationshipDraft}

/-- A successful `createRelationship` of an identifying relationship makes the holder identify
by it, up to the propagation of the holder columns that were no key columns of `C`. -/
theorem createRelationship_identifies (hv : db.validate = .ok ()) (hkind : d.kind = .identifying)
    {st st' : Session} (hst : st.db = db) (hrun : (createRelationship sid d).run st = .ok () st') :
    ∃ s C P, db.Building sid s d C P ∧ ¬Relation.ReflTransGen s.DependsOn P.id C.id ∧
      ∃ (T : Table) (R : Relationship) (st₁ : Session),
        T.Identifies d st.config.naming.column.max C P R ∧
        st₁.db = db.updateTable sid d.fkTableId (fun _ => T) ∧
        (R.fkColumnIds.filter (!C.isKeyColumn ·) = [] → st'.db = st₁.db) ∧
        (R.fkColumnIds.filter (!C.isKeyColumn ·) ≠ [] → ∃ n st₂,
          (propagateKeys sid d.fkTableId (R.fkColumnIds.filter (!C.isKeyColumn ·))).run st₁ =
            .ok n st₂ ∧ st'.db = st₂.db) := by
  unfold createRelationship at hrun
  dsimp only at hrun
  obtain ⟨C, st₁, h₁, h₂⟩ := run_bind_ok hrun
  obtain ⟨hst₁, s, hs, hC⟩ := table_run h₁
  subst st₁
  obtain ⟨P, st₂, h₃, h₄⟩ := run_bind_ok h₂
  obtain ⟨hst₂, s₂, hs₂, hP⟩ := provider_run h₃
  subst st₂
  obtain ⟨_, st₃, h₅, h₆⟩ := run_bind_ok h₄
  have hst₃ := checkRelationshipName_run h₅
  subst st₃
  obtain ⟨_, st₄, h₇, h₈⟩ := run_bind_ok h₆
  obtain ⟨hst₄, hfresh⟩ := ensureFreshId_run h₇
  subst st₄
  split at h₈
  · obtain ⟨_, _, hthrow, -⟩ := run_bind_ok h₈
    cases hthrow
  obtain ⟨_, st₅, h₉, h₁₀⟩ := run_bind_ok h₈
  obtain ⟨hst₅, hmaps⟩ := check_run h₉
  subst st₅
  obtain ⟨s', st₆, h₁₁, h₁₂⟩ := run_bind_ok h₁₀
  obtain ⟨hst₆, hs'⟩ := schema_run h₁₁
  subst st₆
  obtain ⟨_, st₇, h₁₃, h₁₄⟩ := run_bind_ok h₁₂
  obtain ⟨hst₇, hacyc⟩ := check_run h₁₃
  subst st₇
  subst hst
  rw [hs] at hs₂ hs'
  cases hs₂
  cases hs'
  obtain ⟨hB, hnr⟩ := Database.building_of_checks hv hs hC hP hfresh hacyc
  obtain ⟨hpks, hfks⟩ := RelationshipDraft.checkMappings_nodup hmaps
  obtain ⟨_, st₈, h₁₅, h₁₆⟩ := run_bind_ok h₁₄
  have hdb₈ : st₈.db = st.db.updateTable sid d.fkTableId
      (fun _ => { C with relationships := C.relationships ++ [d.bare] }) :=
    (modifyTable_run h₁₅).1.trans (Database.updateTable_congr hB.findsHolder rfl)
  have hcfg₈ := modifyTable_config h₁₅
  obtain ⟨_, st₉, h₁₇, h₁₈⟩ := run_bind_ok h₁₆
  obtain ⟨T₂, R₂, hdb₉, hcfg₉, hT₂, hk₂, hR₂⟩ := attachDrafts_completes hB hfks [] d.columns _ _ st₈
    st₉ rfl hdb₈ (by rw [hcfg₈]) (Table.Completes.start hB.numbered) rfl rfl h₁₇
  obtain ⟨_, st₁₀, h₁₉, h₂₀⟩ := run_bind_ok h₁₈
  have hdb' : st₁₀.db = st'.db :=
    (keeps_revalidateRelationship sid d.id : Keeps Eq _) _ _ _ h₂₀
  have hfks₂ : R₂.fkColumnIds = d.columns.map (·.fkColumnId) := fkColumnIds_of_ends hR₂
  obtain ⟨T, R, ms, ks, st₁, hT, hR, hms, hnew, hnd, hkeys, hdb₁, hnil, hcons⟩ :=
    completeIdentifying_completes hB hdb₉ (by rw [hcfg₉, hcfg₈]) hT₂ hk₂ (hfks₂ ▸ hfks)
      (fun c hc => hfks₂ ▸ hc) h₁₉
  have hlen : R₂.columns.length = d.columns.length := by
    simpa using congrArg List.length hR₂
  refine ⟨s, C, P, hB, hnr, { T with constraints := ks }, R, st₁, ⟨hT.withConstraints ks, ?_, ?_, ?_,
    hnd, hkeys⟩, hdb₁, fun h => (hnil h ▸ hdb').symm, fun h => ?_⟩
  · rw [hR, List.take_left' hlen]
    exact hR₂
  · rw [hR, List.drop_left' hlen, hms]
    simp only [mapsPkColumn_of_ends hR₂, decide_not]
  · rw [hR, List.drop_left' hlen]
    exact hnew
  · obtain ⟨n, hn⟩ := hcons h
    exact ⟨n, st₁₀, hn, hdb'.symm⟩

end EditM

end SchemaDesign
