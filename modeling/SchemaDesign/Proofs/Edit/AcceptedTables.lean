import SchemaDesign.Proofs.Edit.SchemaGrowth
import SchemaDesign.Proofs.Edit.KeyGuards
import SchemaDesign.Proofs.Edit.SoundKeys
import SchemaDesign.Proofs.Edit.Resequencing
import SchemaDesign.Proofs.Edit.RemovalFrame

/-!
# What an accepted table offers

Validation checks each part of a table against its owner and each reference against the
snapshot. Two consequences hold of every accepted snapshot:

- every id a table mentions, as an entity's or in a reference, is the id of an entity of the
  snapshot (`Database.mentionedIds_subset_ids`): parts name their table, entries and mappings
  name existing columns, relationships name existing tables. So an id the snapshot does not use
  is mentioned nowhere (`Database.not_mem_mentionedIds`);
- a table that is also tidy (`Table.Tidy`: no index or constraint without entries, no UNIQUE
  constraint restating the key) is `Settled`, the table that `Table.grow` builds on
  (`Database.settled_of_validate`).
-/

namespace SchemaDesign

/-- A fold whose every step extends an invariant of the items taken so far. -/
theorem Except.foldlM_invariant {ε α γ : Type} {body : γ → α → Except ε γ}
    (I : List α → γ → Prop)
    (hstep : ∀ pre acc x acc', I pre acc → body acc x = .ok acc' → I (pre ++ [x]) acc') :
    ∀ (xs pre : List α) (acc r : γ), I pre acc → xs.foldlM body acc = .ok r → I (pre ++ xs) r
  | [], pre, acc, r, hI, h => by
    cases h
    simpa using hI
  | x :: xs, pre, acc, r, hI, h => by
    rw [List.foldlM_cons] at h
    obtain ⟨acc', h₁, h₂⟩ := Except.exists_of_bind_eq_ok h
    have hrest := Except.foldlM_invariant I hstep xs (pre ++ [x]) acc' r (hstep pre acc x acc' hI h₁) h₂
    rwa [List.append_assoc, List.singleton_append] at hrest

/-! ## Parts checked against their table -/

namespace Table

variable {t : Table} {vendor : Vendor}

theorem columnOwners_of_validateParts (h : t.validateParts vendor = .ok ()) :
    ∀ c ∈ t.columns, c.tableId = t.id := by
  unfold validateParts at h
  obtain ⟨_, hfold, -⟩ := Except.exists_of_bind_eq_ok h
  refine Except.forall_of_foldlM_eq_ok (fun acc c acc' hb => ?_) _ _ _ hfold
  dsimp only at hb
  split at hb
  · cases hb
  · obtain ⟨_, howner, -⟩ := Except.exists_of_bind_eq_ok hb
    simpa using ensure_eq_ok howner

/-- An accepted index belongs to its table, and its entries name columns of the table. -/
theorem indexes_of_validateParts (h : t.validateParts vendor = .ok ()) :
    ∀ i ∈ t.indexes, i.tableId = t.id ∧ ∀ e ∈ i.columns, (t.column? e.columnId).isSome := by
  unfold validateParts at h
  obtain ⟨_, -, h⟩ := Except.exists_of_bind_eq_ok h
  obtain ⟨_, hfold, -⟩ := Except.exists_of_bind_eq_ok h
  refine Except.forall_of_foldlM_eq_ok (fun seen i seen' hb => ?_) _ _ _ hfold
  obtain ⟨_, howner, hb⟩ := Except.exists_of_bind_eq_ok hb
  obtain ⟨_, hentries, -⟩ := Except.exists_of_bind_eq_ok hb
  refine ⟨by simpa using ensure_eq_ok howner, ?_⟩
  refine Except.forall_of_foldlM_eq_ok (fun n e n' he => ?_) _ _ _ hentries
  obtain ⟨_, -, he⟩ := Except.exists_of_bind_eq_ok he
  obtain ⟨_, hcol, -⟩ := Except.exists_of_bind_eq_ok he
  exact ensure_eq_ok hcol

/-- Accepted indexes have distinct definitions: each is compared with those before it. -/
theorem indexSignatures_of_validateParts (h : t.validateParts vendor = .ok ()) :
    (t.indexes.map (·.signature)).Nodup := by
  unfold validateParts at h
  obtain ⟨_, -, h⟩ := Except.exists_of_bind_eq_ok h
  obtain ⟨_, hfold, -⟩ := Except.exists_of_bind_eq_ok h
  have hnd := Except.nodup_flatMap_of_foldlM
    (fun seen : List Index => (seen.map (·.signature)).reverse) (fun i => [i.signature]) ?_ hfold rfl
  · rwa [List.map_eq_flatMap]
  intro seen i seen' hb hnd
  -- the owner and the entries are checked before the definition
  obtain ⟨_, -, hb⟩ := Except.exists_of_bind_eq_ok hb
  obtain ⟨_, -, hb⟩ := Except.exists_of_bind_eq_ok hb
  split at hb
  · cases hb
  next hnone =>
    cases hb
    have hnew : i.signature ∉ seen.map (·.signature) := fun hm => by
      obtain ⟨j, hj, hjs⟩ := List.mem_map.1 hm
      exact List.find?_eq_none.1 hnone j hj (by simpa using hjs)
    refine ⟨by simp, ?_⟩
    simp only [List.map_append, List.map_singleton, List.reverse_append, List.reverse_singleton,
      List.singleton_append, List.nodup_cons, List.mem_reverse]
    exact ⟨hnew, hnd⟩

/-- Accepted constraints belong to their table. -/
theorem constraintOwners_of_validateParts (h : t.validateParts vendor = .ok ()) :
    ∀ k ∈ t.constraints, k.tableId = t.id := by
  unfold validateParts at h
  obtain ⟨_, -, h⟩ := Except.exists_of_bind_eq_ok h
  obtain ⟨_, -, h⟩ := Except.exists_of_bind_eq_ok h
  obtain ⟨_, hfold, -⟩ := Except.exists_of_bind_eq_ok h
  refine Except.forall_of_foldlM_eq_ok (fun acc k acc' hb => ?_) _ _ _ hfold
  dsimp only at hb
  obtain ⟨_, howner, -⟩ := Except.exists_of_bind_eq_ok hb
  simpa using ensure_eq_ok howner

/-- Accepted constraints have distinct definitions and at most one primary key: the fold counts
the keys and compares each constraint with those before it. -/
theorem constraintKeys_of_validateParts (h : t.validateParts vendor = .ok ()) :
    (t.constraints.map (·.signature)).Nodup ∧ t.constraints.countP (·.isPrimaryKey) ≤ 1 := by
  unfold validateParts at h
  obtain ⟨_, -, h⟩ := Except.exists_of_bind_eq_ok h
  obtain ⟨_, -, h⟩ := Except.exists_of_bind_eq_ok h
  obtain ⟨_, hfold, -⟩ := Except.exists_of_bind_eq_ok h
  have hinv := Except.foldlM_invariant (fun (pre : List Constraint) (acc : List Constraint × Nat) =>
      acc.1 = pre ∧ acc.2 = pre.countP (·.isPrimaryKey) ∧ acc.2 ≤ 1 ∧ (pre.map (·.signature)).Nodup)
    ?_ t.constraints [] ([], 0) _ ⟨rfl, rfl, Nat.zero_le _, List.nodup_nil⟩ hfold
  · obtain ⟨-, hcount, hle, hnd⟩ := hinv
    rw [List.nil_append] at hcount hnd
    exact ⟨hnd, hcount ▸ hle⟩
  rintro pre ⟨seen, keys⟩ k acc' ⟨hseen, hkeys, -, hnd⟩ hb
  dsimp only at hseen hkeys hb
  subst hkeys hseen
  -- the owner, the count of keys and the entries come before the definition
  obtain ⟨_, -, hb⟩ := Except.exists_of_bind_eq_ok hb
  obtain ⟨_, hle, hb⟩ := Except.exists_of_bind_eq_ok hb
  obtain ⟨_, -, hb⟩ := Except.exists_of_bind_eq_ok hb
  split at hb
  · cases hb
  next hnone =>
    cases hb
    have hnew : k.signature ∉ seen.map (·.signature) := fun hm => by
      obtain ⟨j, hj, hjs⟩ := List.mem_map.1 hm
      exact List.find?_eq_none.1 hnone j hj (by simpa using hjs)
    have hle := of_decide_eq_true (ensure_eq_ok hle)
    refine ⟨rfl, ?_, hle, ?_⟩
    · by_cases hk : k.isPrimaryKey <;> simp [hk, List.countP_append]
    · rw [List.map_append, List.map_singleton]
      refine List.nodup_append.2 ⟨hnd, List.nodup_singleton _, fun a ha b hb hab => hnew ?_⟩
      rw [← List.mem_singleton.1 hb, ← hab]
      exact ha

variable {s : Schema} {r : Relationship}

theorem provider_of_validateRelationship (h : t.validateRelationship s r = .ok ()) :
    (s.table? r.pkTableId).isSome := by
  unfold validateRelationship at h
  obtain ⟨_, -, h⟩ := Except.exists_of_bind_eq_ok h
  cases hp : s.table? r.pkTableId with
  | none => rw [hp] at h; cases h
  | some p => rfl

/-- An accepted relationship maps columns of its provider. -/
theorem pkColumn_of_validateRelationship (h : t.validateRelationship s r = .ok ()) {p : Table}
    (hp : s.table? r.pkTableId = some p) : ∀ m ∈ r.columns, (p.column? m.pkColumnId).isSome := by
  unfold validateRelationship at h
  obtain ⟨_, -, h⟩ := Except.exists_of_bind_eq_ok h
  rw [hp] at h
  obtain ⟨_, -, h⟩ := Except.exists_of_bind_eq_ok h
  obtain ⟨_, hfold, -⟩ := Except.exists_of_bind_eq_ok h
  refine Except.forall_of_foldlM_eq_ok ?_ _ _ _ hfold
  intro n m n' hb
  obtain ⟨_, -, hb⟩ := Except.exists_of_bind_eq_ok hb
  split at hb
  · split at hb
    · simp [*]
    · cases hb
  · cases hb

theorem indexEntryId_mem_ids {i : Index} (hi : i ∈ t.indexes) {e : IndexColumn} (he : e ∈ i.columns) :
    e.id ∈ t.ids :=
  List.mem_map.2 ⟨("index column", e.id), List.mem_append_left _ (List.mem_append_left _
    (List.mem_append_right _ (List.mem_flatMap.2 ⟨i, hi, List.mem_cons_of_mem _
      (List.mem_map_of_mem he)⟩))), rfl⟩

theorem columnId_mem_ids {x : Id} (hx : (t.column? x).isSome) : x ∈ t.ids := by
  obtain ⟨c, hc⟩ := Option.isSome_iff_exists.1 hx
  have hcx : c.id = x := by simpa using List.find?_some hc
  exact hcx ▸ t.columnIds_sublist_labelledIds.subset (List.mem_map_of_mem (List.mem_of_find?_eq_some hc))

end Table

/-- Every table of an accepted schema names the schema. -/
theorem Schema.schemaIds_of_validate {s : Schema} (h : s.validate = .ok ()) :
    ∀ t ∈ s.tables, t.schemaId = s.id := by
  unfold validate at h
  obtain ⟨_, hfold, -⟩ := Except.exists_of_bind_eq_ok h
  refine Except.forall_of_foldlM_eq_ok ?_ _ _ _ hfold
  rintro ⟨tables, indexes, constraints⟩ t acc' hb
  dsimp only at hb
  split at hb
  · cases hb
  · obtain ⟨_, hschema, -⟩ := Except.exists_of_bind_eq_ok hb
    simpa using ensure_eq_ok hschema

/-! ## Ids an accepted snapshot mentions -/

namespace Database

theorem column_mem_ids {db : Database} {s : Schema} (hs : s ∈ db.schemas) {u : Table}
    (hu : u ∈ s.tables) {x : Id} (hx : (u.column? x).isSome) : x ∈ db.ids :=
  (table_ids_sublist hs hu).subset (Table.columnId_mem_ids hx)

section Mentions

variable {db : Database} (hv : db.validate = .ok ()) {s : Schema} (hs : s ∈ db.schemas)
  {t : Table} (ht : t ∈ s.tables)
include hv hs ht

theorem columnPart_subset_ids : t.columns.flatMap (fun c => [c.id, c.tableId]) ⊆ db.ids := by
  intro x hx
  obtain ⟨c, hc, hx⟩ := List.mem_flatMap.1 hx
  have hparts := Schema.validateParts_of_validate (schemas_validate hv s hs) t ht
  rcases List.mem_cons.1 hx with rfl | hx
  · exact (table_ids_sublist hs ht).subset
      (t.columnIds_sublist_labelledIds.subset (List.mem_map_of_mem hc))
  · rw [List.mem_singleton.1 hx, Table.columnOwners_of_validateParts hparts c hc]
    exact (table_ids_sublist hs ht).subset (t.ids_sublist_labelledIds.1.subset List.mem_cons_self)

theorem indexPart_subset_ids :
    t.indexes.flatMap (fun i => i.id :: i.tableId :: i.columns.flatMap fun c => [c.id, c.columnId]) ⊆
      db.ids := by
  intro x hx
  obtain ⟨i, hi, hx⟩ := List.mem_flatMap.1 hx
  have hparts := Schema.validateParts_of_validate (schemas_validate hv s hs) t ht
  obtain ⟨howner, hentries⟩ := Table.indexes_of_validateParts hparts i hi
  have hsub := (table_ids_sublist hs ht).subset
  rcases List.mem_cons.1 hx with rfl | hx
  · exact hsub (t.indexIds_sublist_labelledIds.subset (List.mem_map_of_mem hi))
  rcases List.mem_cons.1 hx with rfl | hx
  · rw [howner]
    exact hsub (t.ids_sublist_labelledIds.1.subset List.mem_cons_self)
  obtain ⟨e, he, hx⟩ := List.mem_flatMap.1 hx
  rcases List.mem_cons.1 hx with rfl | hx
  · exact hsub (Table.indexEntryId_mem_ids hi he)
  · rw [List.mem_singleton.1 hx]
    exact column_mem_ids hs ht (hentries e he)

theorem constraintPart_subset_ids :
    t.constraints.flatMap (fun k => k.id :: k.tableId :: k.columns.flatMap fun c =>
      [c.id, c.columnId]) ⊆ db.ids := by
  intro x hx
  obtain ⟨k, hk, hx⟩ := List.mem_flatMap.1 hx
  have hparts := Schema.validateParts_of_validate (schemas_validate hv s hs) t ht
  have hsub := (table_ids_sublist hs ht).subset
  rcases List.mem_cons.1 hx with rfl | hx
  · exact hsub (t.constraintIds_sublist_labelledIds.subset (List.mem_map_of_mem hk))
  rcases List.mem_cons.1 hx with rfl | hx
  · rw [Table.constraintOwners_of_validateParts hparts k hk]
    exact hsub (t.ids_sublist_labelledIds.1.subset List.mem_cons_self)
  obtain ⟨e, he, hx⟩ := List.mem_flatMap.1 hx
  rcases List.mem_cons.1 hx with rfl | hx
  · exact hsub ((t.partIds_sublist_labelledIds.1 k hk).subset (List.mem_map_of_mem he))
  · rw [List.mem_singleton.1 hx]
    exact column_mem_ids hs ht (Table.constraintEntries_of_validateParts hparts k hk e he)

theorem relationshipPart_subset_ids :
    t.relationships.flatMap (fun r => r.id :: r.fkTableId :: r.pkTableId ::
      r.columns.flatMap fun m => [m.id, m.fkColumnId, m.pkColumnId]) ⊆ db.ids := by
  intro x hx
  obtain ⟨r, hr, hx⟩ := List.mem_flatMap.1 hx
  have hrel := Table.validateRelationship_of_validateRelationships
    (Schema.validateRelationships_of_validate (schemas_validate hv s hs) t ht) r hr
  obtain ⟨p, hp⟩ := Option.isSome_iff_exists.1 (Table.provider_of_validateRelationship hrel)
  obtain ⟨hpm, hpid⟩ := Schema.mem_of_table? hp
  have hsub := (table_ids_sublist hs ht).subset
  rcases List.mem_cons.1 hx with rfl | hx
  · exact hsub (t.ids_sublist_labelledIds.2.subset (List.mem_map_of_mem hr))
  rcases List.mem_cons.1 hx with rfl | hx
  · rw [Table.fkTableId_of_validateRelationship hrel]
    exact hsub (t.ids_sublist_labelledIds.1.subset List.mem_cons_self)
  rcases List.mem_cons.1 hx with rfl | hx
  · rw [← hpid]
    exact (table_ids_sublist hs hpm).subset (p.ids_sublist_labelledIds.1.subset List.mem_cons_self)
  obtain ⟨m, hm, hx⟩ := List.mem_flatMap.1 hx
  rcases List.mem_cons.1 hx with rfl | hx
  · exact hsub ((t.partIds_sublist_labelledIds.2 r hr).subset (List.mem_map_of_mem hm))
  rcases List.mem_cons.1 hx with rfl | hx
  · exact column_mem_ids hs ht (Table.fkColumn_of_validateRelationship hrel m hm)
  · rw [List.mem_singleton.1 hx]
    exact column_mem_ids hs hpm (Table.pkColumn_of_validateRelationship hrel hp m hm)

/-- Every id a table of an accepted snapshot mentions is the id of an entity of the snapshot. -/
theorem mentionedIds_subset_ids : t.mentionedIds ⊆ db.ids := by
  have hsv := schemas_validate hv s hs
  intro x hx
  unfold Table.mentionedIds at hx
  rcases List.mem_cons.1 hx with rfl | hx
  · exact (table_ids_sublist hs ht).subset (t.ids_sublist_labelledIds.1.subset List.mem_cons_self)
  rcases List.mem_cons.1 hx with rfl | hx
  · rw [Schema.schemaIds_of_validate hsv t ht, ids_eq]
    exact List.mem_cons_of_mem _ (List.mem_flatMap.2 ⟨s, hs, List.mem_cons_self⟩)
  -- the columns, the indexes, the constraints and the relationships, in this order
  rcases List.mem_append.1 hx with hx | hx
  · rcases List.mem_append.1 hx with hx | hx
    · rcases List.mem_append.1 hx with hx | hx
      · exact columnPart_subset_ids hv hs ht hx
      · exact indexPart_subset_ids hv hs ht hx
    · exact constraintPart_subset_ids hv hs ht hx
  · exact relationshipPart_subset_ids hv hs ht hx

/-- An id an accepted snapshot does not use is mentioned by none of its tables. -/
theorem not_mem_mentionedIds {x : Id} (hx : db.usesId x = false) : x ∉ t.mentionedIds :=
  fun hm => by
    rw [← Bool.not_eq_true, usesId_iff] at hx
    exact hx (mentionedIds_subset_ids hv hs ht hm)

end Mentions

end Database

/-! ## Settled tables -/

/-- No index or constraint without entries, and no UNIQUE constraint restating the key. -/
structure Table.Tidy (t : Table) : Prop where
  indexes : ∀ i ∈ t.indexes, i.columns ≠ []
  constraints : ∀ k ∈ t.constraints, k.columns ≠ []
  notRestated : t.uniqueRestatingKey? = none

/-- A tidy table of an accepted snapshot is settled. -/
theorem Database.settled_of_validate {db : Database} (hv : db.validate = .ok ()) {s : Schema}
    (hs : s ∈ db.schemas) {t : Table} (ht : t ∈ s.tables) (htidy : t.Tidy) : t.Settled := by
  have hn := labelledIds_nodup_of_validate hv
  have hsv := schemas_validate hv s hs
  have hparts := Schema.validateParts_of_validate hsv t ht
  have hkeys := Table.constraintKeys_of_validateParts hparts
  exact {
    gapless := gapless_of_validate hv s hs t ht
    columnIds := columnIds_nodup hn hs ht
    relationshipIds := (table_labelledIds_nodup hn hs ht).sublist t.ids_sublist_labelledIds.2
    indexes := htidy.indexes
    constraints := htidy.constraints
    relationships := fun r hr => Table.columns_ne_nil_of_validateRelationship
      (Table.validateRelationship_of_validateRelationships
        (Schema.validateRelationships_of_validate hsv t ht) r hr)
    indexSignatures := Table.indexSignatures_of_validateParts hparts
    constraintSignatures := hkeys.1
    onePrimaryKey := hkeys.2
    notRestated := htidy.notRestated }

end SchemaDesign
