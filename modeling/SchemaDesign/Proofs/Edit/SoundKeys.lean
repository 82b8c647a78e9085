import SchemaDesign.Proofs.Edit.KeyMappings

/-!
# Every operation keeps sound keys

An operation accepted on an accepted snapshot whose keys are sound leaves sound keys
(`Editor.apply_keeps_keys_sound`): in every table at most one primary key, no index or constraint
without columns, DEFAULT and NOT_NULL on exactly one column, CHECK and DEFAULT with a non-blank
expression, no column twice in an index, a constraint or a relationship, no two indexes and no two
constraints with one definition, and no UNIQUE constraint restating the primary key.

The operations are built of the steps of `KeySteps` and `KeyMappings`. What they read of the
snapshot before they change it comes from validation (`Database.KeyBase`):

- distinct ids, so that the entry a check finds is the one the change makes, and a fresh id is
  no entry's;
- relationships named after their holders and with mappings, so that completing a relationship
  made identifying grows its holder's key;
- constraint entries on columns of their table, so that the NOT_NULL constraint of a new column
  repeats no definition.

An entry is changed under one id and checked afterwards (`Table.KeysSound.appendIndex`,
`updateIndex`, `appendConstraint`, `updateConstraint`): the check compares the entry with the
others, whose definitions were distinct before.

Sound keys say nothing of SET NULL. Making a relationship identifying folds its holder columns
into the key, and a column that another relationship of the holder sets to null may be among
them (`Editor.identifying_key_breaks_setNull`).
-/

namespace SchemaDesign

/-- What the operations need of a snapshot with sound keys, besides the keys themselves; an
accepted snapshot offers it (`Database.keyBase_of_validate`). -/
structure Database.KeyBase (db : Database) : Prop where
  sound : db.KeysSound
  ids : db.ids.Nodup
  holders : ∀ s ∈ db.schemas, ∀ t ∈ s.tables, ∀ r ∈ t.relationships, r.fkTableId = t.id
  filled : ∀ s ∈ db.schemas, ∀ t ∈ s.tables, ∀ r ∈ t.relationships, r.columns ≠ []
  entries : ∀ s ∈ db.schemas, ∀ t ∈ s.tables, ∀ k ∈ t.constraints, ∀ e ∈ k.columns,
    (t.column? e.columnId).isSome

/-- Every constraint entry of an accepted table names a column of the table. -/
theorem Table.constraintEntries_of_validateParts {t : Table} {vendor : Vendor}
    (h : t.validateParts vendor = .ok ()) :
    ∀ k ∈ t.constraints, ∀ e ∈ k.columns, (t.column? e.columnId).isSome := by
  unfold Table.validateParts at h
  obtain ⟨_, -, h⟩ := Except.exists_of_bind_eq_ok h
  obtain ⟨_, -, h⟩ := Except.exists_of_bind_eq_ok h
  obtain ⟨_, hfold, -⟩ := Except.exists_of_bind_eq_ok h
  refine Except.forall_of_foldlM_eq_ok (fun acc k acc' hb => ?_) _ _ _ hfold
  dsimp only at hb
  obtain ⟨_, -, hb⟩ := Except.exists_of_bind_eq_ok hb
  obtain ⟨_, -, hb⟩ := Except.exists_of_bind_eq_ok hb
  obtain ⟨_, hentries, -⟩ := Except.exists_of_bind_eq_ok hb
  refine Except.forall_of_foldlM_eq_ok (fun n e n' he => ?_) _ _ _ hentries
  obtain ⟨_, -, he⟩ := Except.exists_of_bind_eq_ok he
  obtain ⟨_, hcol, -⟩ := Except.exists_of_bind_eq_ok he
  exact ensure_eq_ok hcol

theorem Database.keyBase_of_validate {db : Database} (hv : db.validate = .ok ())
    (hk : db.KeysSound) : db.KeyBase where
  sound := hk
  ids := labelledIds_nodup_of_validate hv
  holders _ hs _ ht _ hr := fkTableId_of_validate hv hs ht hr
  filled s hs t ht r hr := Table.columns_ne_nil_of_validateRelationship
    (Table.validateRelationship_of_validateRelationships
      (Schema.validateRelationships_of_validate (schemas_validate hv s hs) t ht) r hr)
  entries s hs t ht := Table.constraintEntries_of_validateParts
    (Schema.validateParts_of_validate (schemas_validate hv s hs) t ht)

/-! ## Ids of a table -/

namespace Table

variable {t : Table} {x : Id}

theorem indexId_ne (h : x ∉ t.ids) : ∀ i ∈ t.indexes, i.id ≠ x := fun _ hi hix =>
  h (hix ▸ t.indexIds_sublist_labelledIds.subset (List.mem_map_of_mem hi))

theorem constraintId_ne (h : x ∉ t.ids) : ∀ k ∈ t.constraints, k.id ≠ x := fun _ hk hkx =>
  h (hkx ▸ t.constraintIds_sublist_labelledIds.subset (List.mem_map_of_mem hk))

theorem columnId_ne (h : x ∉ t.ids) : ∀ c ∈ t.columns, c.id ≠ x := fun _ hc hcx =>
  h (hcx ▸ t.columnIds_sublist_labelledIds.subset (List.mem_map_of_mem hc))

theorem relationshipId_ne (h : x ∉ t.ids) : ∀ r ∈ t.relationships, r.id ≠ x := fun _ hr hrx =>
  h (hrx ▸ (Table.ids_sublist_labelledIds t).2.subset (List.mem_map_of_mem hr))

end Table

namespace Database

variable {db : Database} {sid tid : Id} {t : Table}

theorem table_ids_sublist {s : Schema} (hs : s ∈ db.schemas) (ht : t ∈ s.tables) :
    t.ids.Sublist db.ids := by
  refine List.Sublist.trans ?_ (tables_labelledIds_sublist hs)
  rw [List.flatMap_def]
  exact List.Sublist.map _ (List.sublist_flatten_of_mem (List.mem_map_of_mem ht))

theorem not_mem_table_ids {s : Schema} (hs : s ∈ db.schemas) (ht : t ∈ s.tables) {x : Id}
    (hx : db.usesId x = false) : x ∉ t.ids := fun hm => by
  rw [← Bool.not_eq_true, Database.usesId_iff] at hx
  exact hx ((table_ids_sublist hs ht).subset hm)

theorem FindsTable.ids_sublist (ht : db.FindsTable sid tid t) : t.ids.Sublist db.ids := by
  obtain ⟨s, hs, ht⟩ := ht
  exact table_ids_sublist (List.mem_of_find?_eq_some hs) (List.mem_of_find?_eq_some ht)

theorem FindsTable.not_mem_ids (ht : db.FindsTable sid tid t) {x : Id} (hx : db.usesId x = false) :
    x ∉ t.ids := by
  obtain ⟨s, hs, ht⟩ := ht
  exact not_mem_table_ids (List.mem_of_find?_eq_some hs) (List.mem_of_find?_eq_some ht) hx

namespace KeyBase

variable (h : db.KeyBase)
include h

theorem indexIds_nodup (ht : db.FindsTable sid tid t) : (t.indexes.map (·.id)).Nodup :=
  (h.ids.sublist ht.ids_sublist).sublist t.indexIds_sublist_labelledIds

theorem constraintIds_nodup (ht : db.FindsTable sid tid t) : (t.constraints.map (·.id)).Nodup :=
  (h.ids.sublist ht.ids_sublist).sublist t.constraintIds_sublist_labelledIds

/-- No constraint of a table holds a column id the snapshot does not use: constraint entries are
on columns of their table. -/
theorem containsColumn_fresh (ht : db.FindsTable sid tid t) {x : Id} (hx : db.usesId x = false) :
    ∀ k ∈ t.constraints, k.containsColumn x = false := by
  obtain ⟨s, hs, hst⟩ := ht
  intro k hk
  simp only [Constraint.containsColumn, List.any_eq_false, decide_eq_true_eq]
  intro e he hex
  obtain ⟨c, hc⟩ := Option.isSome_iff_exists.1 (h.entries s (List.mem_of_find?_eq_some hs) t
    (List.mem_of_find?_eq_some hst) k hk e he)
  have hcid : c.id = e.columnId := by simpa using List.find?_some hc
  exact Table.columnId_ne (FindsTable.not_mem_ids ⟨s, hs, hst⟩ hx) c
    (List.mem_of_find?_eq_some hc) (hcid.trans hex)

theorem hasNotNull_fresh (ht : db.FindsTable sid tid t) {x : Id} (hx : db.usesId x = false) :
    t.hasNotNull x = false := by
  simp only [Table.hasNotNull, List.any_eq_false]
  intro k hk
  simp [h.containsColumn_fresh ht hx k hk]

section Relationship

variable {rid : Id} {found : Table × Relationship}
  (hrel : ∃ s, db.schema? sid = some s ∧ s.relationship? rid = some found)
include hrel

theorem findsHolder : db.FindsTable sid found.1.id found.1 ∧ found.1.relationship? rid = some found.2 := by
  obtain ⟨s, hs, hr⟩ := hrel
  obtain ⟨hmem, hfind⟩ := Schema.relationship?_spec hr
  have hids := Database.tableIds_nodup h.ids (List.mem_of_find?_eq_some hs)
  exact ⟨⟨s, hs, Schema.table?_of_mem hids hmem⟩, hfind⟩

theorem mapsNeither {pk fk : Id} (hpk : found.2.mapsPkColumn pk = false)
    (hfk : found.2.mapsFkColumn fk = false) : db.MapsNeither sid found.1.id rid pk fk := by
  obtain ⟨hholder, hr⟩ := h.findsHolder hrel
  intro t ht r hr'
  obtain rfl := ht.unique hholder
  obtain rfl := Option.some.inj (hr'.symm.trans hr)
  exact ⟨hpk, hfk⟩

/-- Only the holder of a relationship holds one with its id: relationship ids are distinct
across the schema, and each relationship names its holder. -/
theorem heldAt : db.HeldAt sid rid found.1.id := by
  obtain ⟨s₀, hs₀, hr⟩ := hrel
  obtain ⟨hmem, hfind⟩ := Schema.relationship?_spec hr
  intro s hs
  obtain rfl : s = s₀ := Option.some.inj (hs.symm.trans hs₀)
  have hsm := List.mem_of_find?_eq_some hs
  refine ⟨Database.tableIds_nodup h.ids hsm, fun t ht r hr hrid => ?_⟩
  have hrm : found.2 ∈ found.1.relationships := List.mem_of_find?_eq_some hfind
  have hrid' : found.2.id = rid := by simpa using List.find?_some hfind
  have hsame : r = found.2 := List.inj_on_of_nodup_map (Database.relationshipIds_nodup h.ids hsm)
    (List.mem_flatMap.2 ⟨t, ht, hr⟩) (List.mem_flatMap.2 ⟨found.1, hmem, hrm⟩) (hrid.trans hrid'.symm)
  calc t.id = r.fkTableId := (h.holders s hsm t ht r hr).symm
    _ = found.2.fkTableId := by rw [hsame]
    _ = found.1.id := h.holders s hsm found.1 hmem found.2 hrm

end Relationship

theorem filledAt (hid rid : Id) : db.Filled sid hid rid := by
  rintro t ⟨s, hs, hst⟩ r hr
  exact h.filled s (List.mem_of_find?_eq_some hs) t (List.mem_of_find?_eq_some hst) r
    (List.mem_of_find?_eq_some hr)

end KeyBase

end Database

/-! ## Lists under a change of one entry -/

theorem nodup_map_append_new {α β : Type} {key : α → β} {l : List α} {x : α}
    (h : (l.map key).Nodup) (hnew : ∀ y ∈ l, key y ≠ key x) : ((l ++ [x]).map key).Nodup := by
  rw [List.map_append, List.map_singleton, List.nodup_append]
  refine ⟨h, List.nodup_singleton _, ?_⟩
  intro a ha b hb hab
  obtain ⟨y, hy, rfl⟩ := List.mem_map.1 ha
  exact hnew y hy (hab.trans (List.mem_singleton.1 hb))

theorem filter_append_new_sublist {α : Type} {key : α → Id} {l : List α} {x : α}
    (hnew : ∀ y ∈ l, key y ≠ key x) : ((l ++ [x]).filter (key · ≠ key x)).Sublist l := by
  rw [filter_append_new hnew]

theorem filter_updateFirst_key_sublist {α : Type} {key : α → Id} {k : Id} {f : α → α}
    (hf : ∀ x, key (f x) = key x) (l : List α) :
    ((updateFirst (key · = k) f l).filter (key · ≠ k)).Sublist l := by
  rw [filter_updateFirst_key hf]
  exact List.filter_sublist

theorem forall_mem_updateFirst_found {α : Type} {P : α → Prop} {p : α → Bool} {f : α → α}
    {xs : List α} {x : α} (h : ∀ y ∈ xs, P y) (hx : xs.find? p = some x) (hf : P (f x)) :
    ∀ y ∈ updateFirst p f xs, P y :=
  forall_mem_updateFirst h fun _ hy => (Option.some.inj (hy.symm.trans hx)) ▸ hf

theorem countP_updateFirst {α : Type} {p q : α → Bool} {f : α → α} (hf : ∀ x, q (f x) = q x) :
    ∀ l : List α, (updateFirst p f l).countP q = l.countP q
  | [] => rfl
  | x :: xs => by
    unfold updateFirst
    split
    · simp only [List.countP_cons, hf]
    · simp only [List.countP_cons, countP_updateFirst hf xs]

/-! ## Entries changed under one id -/

theorem Index.WellFormed.append {i : Index} (h : i.WellFormed) {e : IndexColumn}
    (he : i.containsColumn e.columnId = false) :
    ({ i with columns := i.columns ++ [e] } : Index).WellFormed := by
  simp only [Index.containsColumn, List.any_eq_false, decide_eq_true_eq] at he
  exact ⟨by simp, nodup_map_append_new h.columnIds_nodup he⟩

theorem Index.WellFormed.of_columnIds {i i' : Index} (h : i.WellFormed)
    (he : i'.columns.map (·.columnId) = i.columns.map (·.columnId)) : i'.WellFormed := by
  refine ⟨fun hnil => h.columns_ne_nil ?_, he ▸ h.columnIds_nodup⟩
  rw [← List.map_eq_nil_iff (f := (·.columnId)), ← he, hnil, List.map_nil]

theorem Constraint.WellFormed.append {k : Constraint} (h : k.WellFormed) {e : ConstraintColumn}
    (he : k.containsColumn e.columnId = false) (hs : k.kind.isSingleColumn = false) :
    ({ k with columns := k.columns ++ [e] } : Constraint).WellFormed := by
  simp only [Constraint.containsColumn, List.any_eq_false, decide_eq_true_eq] at he
  refine ⟨by simp, fun hs' => absurd hs' (by simp [hs]), h.checkExpr, h.defaultExpr, ?_⟩
  exact nodup_map_append_new h.columnIds_nodup he

theorem Table.countP_isPrimaryKey_eq_zero {t : Table} (h : t.primaryKey? = none) :
    t.constraints.countP (·.isPrimaryKey) = 0 := by
  rw [List.countP_eq_zero]
  intro k hk hkp
  rw [Table.primaryKey?, List.find?_eq_none] at h
  exact h k hk (by simpa [Constraint.isPrimaryKey] using hkp)

theorem Table.keysSound_of_nil {t : Table} (hi : t.indexes = []) (hk : t.constraints = [])
    (hr : t.relationships = []) : t.KeysSound where
  indexes := ⟨by simp [hi], by simp [hi]⟩
  constraints := ⟨by simp [hk], by simp [hk], by simp [hk], fun _ h => by simp [hk] at h⟩
  mapsOnce := by simp [hr]

namespace Table.KeysSound

variable {t : Table} (h : t.KeysSound)
include h

/-- An index appended under an id no index has, well formed, and passing the check of its
definition. -/
theorem appendIndex (hids : (t.indexes.map (·.id)).Nodup) {i : Index}
    (hnew : ∀ o ∈ t.indexes, o.id ≠ i.id) (hwf : i.WellFormed)
    (hchk : ({ t with indexes := t.indexes ++ [i] } : Table).ensureDistinctDefinition i.id = .ok ()) :
    ({ t with indexes := t.indexes ++ [i] } : Table).KeysSound :=
  ⟨IndexesSound.of_change h.indexes (nodup_map_append_new hids hnew)
    (forall_mem_append_singleton h.indexes.wellFormed hwf) (filter_append_new_sublist hnew) hchk,
    h.constraints, h.mapsOnce⟩

/-- The index `iid` changed into a well-formed index of the same id, passing the check of its
definition. -/
theorem updateIndex (hids : (t.indexes.map (·.id)).Nodup) {iid : Id} {f : Index → Index}
    (hid : ∀ i, (f i).id = i.id) {i : Index} (hi : t.index? iid = some i) (hwf : (f i).WellFormed)
    (hchk : (t.updateIndex iid f).ensureDistinctDefinition iid = .ok ()) :
    (t.updateIndex iid f).KeysSound := by
  have hids' : ((t.updateIndex iid f).indexes.map (·.id)).Nodup := by
    rw [Table.updateIndex, map_updateFirst_of_key _ fun x _ => hid x]
    exact hids
  exact ⟨IndexesSound.of_change h.indexes hids'
    (forall_mem_updateFirst_found h.indexes.wellFormed hi hwf)
    (filter_updateFirst_key_sublist hid _) hchk, h.constraints, h.mapsOnce⟩

/-- A constraint appended under an id no constraint has, well formed, a key only where there was
none, and passing the check of its definition. -/
theorem appendConstraint (hids : (t.constraints.map (·.id)).Nodup) {k : Constraint}
    (hnew : ∀ o ∈ t.constraints, o.id ≠ k.id) (hwf : k.WellFormed)
    (hpk : k.isPrimaryKey → t.primaryKey? = none)
    (hchk : ({ t with constraints := t.constraints ++ [k] } : Table).ensureDistinctKey k.id = .ok ()) :
    ({ t with constraints := t.constraints ++ [k] } : Table).KeysSound := by
  have hone : (t.constraints ++ [k]).countP (·.isPrimaryKey) ≤ 1 := by
    rw [List.countP_append]
    by_cases hk : k.isPrimaryKey
    · simp [hk, Table.countP_isPrimaryKey_eq_zero (hpk hk)]
    · simpa [hk] using h.constraints.onePrimaryKey
  exact ⟨h.indexes, ConstraintsSound.of_change h.constraints (nodup_map_append_new hids hnew)
    (forall_mem_append_singleton h.constraints.wellFormed hwf) hone
    (filter_append_new_sublist hnew) ⟨k, List.mem_append_right _ (List.mem_singleton_self k), rfl⟩
    hchk, h.mapsOnce⟩

/-- The constraint `kid` changed into a well-formed constraint of the same id and kind, passing
the check of its definition. -/
theorem updateConstraint (hids : (t.constraints.map (·.id)).Nodup) {kid : Id}
    {f : Constraint → Constraint} (hid : ∀ k, (f k).id = k.id) (hkind : ∀ k, (f k).kind = k.kind)
    {k : Constraint} (hk : t.constraint? kid = some k) (hwf : (f k).WellFormed)
    (hchk : (t.updateConstraint kid f).ensureDistinctKey kid = .ok ()) :
    (t.updateConstraint kid f).KeysSound := by
  have hids' : ((t.updateConstraint kid f).constraints.map (·.id)).Nodup := by
    rw [Table.updateConstraint, map_updateFirst_of_key _ fun x _ => hid x]
    exact hids
  have hone : (t.updateConstraint kid f).constraints.countP (·.isPrimaryKey) ≤ 1 := by
    rw [Table.updateConstraint, countP_updateFirst fun x => by simp [Constraint.isPrimaryKey, hkind]]
    exact h.constraints.onePrimaryKey
  have hfind : (t.updateConstraint kid f).constraint? kid = some (f k) := by
    rw [Table.constraint?, Table.updateConstraint, find?_updateFirst fun x hx => by simpa [hid] using hx]
    rw [← Table.constraint?, hk, Option.map_some]
  have hmem := List.mem_of_find?_eq_some hfind
  have hkid : (f k).id = kid := by simpa using List.find?_some hfind
  exact ⟨h.indexes, ConstraintsSound.of_change h.constraints hids'
    (forall_mem_updateFirst_found h.constraints.wellFormed hk hwf) hone
    (filter_updateFirst_key_sublist hid _) ⟨f k, hmem, hkid⟩ hchk, h.mapsOnce⟩

/-- A NOT_NULL constraint on a column no NOT_NULL constraint of the table holds. -/
theorem appendNotNull {cid : Id} (hnn : t.hasNotNull cid = false) {id tid eid : Id}
    {name : String} :
    ({ t with constraints := t.constraints ++
        [⟨id, tid, name, .notNull, none, none, [⟨eid, cid, 1⟩]⟩] } : Table).KeysSound := by
  refine ⟨h.indexes, h.constraints.append ?_ rfl (by simp) fun hsig => ?_, h.mapsOnce⟩
  · exact ⟨List.cons_ne_nil _ _, fun _ => rfl, by simp, by simp, List.nodup_singleton _⟩
  · -- a constraint of that definition would be a NOT_NULL constraint holding the column
    obtain ⟨k, hk, hks⟩ := List.mem_map.1 hsig
    simp only [Constraint.signature, Constraint.columnIds, Prod.mk.injEq] at hks
    have hc : k.containsColumn cid = true := by
      have : cid ∈ k.columns.map (·.columnId) := by simp [hks.2.2.2]
      simpa [Constraint.containsColumn] using this
    have : t.hasNotNull cid = true := List.any_eq_true.2 ⟨k, hk, by simp [hks.1, hc]⟩
    exact absurd this (by simp [hnn])

theorem updateIndex_of_signature {iid : Id} {f : Index → Index}
    (hf : ∀ i, (f i).signature = i.signature) : (t.updateIndex iid f).KeysSound :=
  h.of_signatures (map_updateFirst_of_key _ fun i _ => hf i) rfl rfl

theorem updateConstraint_of_signature {kid : Id} {f : Constraint → Constraint}
    (hf : ∀ k, (f k).signature = k.signature) : (t.updateConstraint kid f).KeysSound :=
  h.of_signatures rfl (map_updateFirst_of_key _ fun k _ => hf k) rfl

end Table.KeysSound

/-! ## Relationships under a change of one of them -/

/-- `t'` is `t` with its relationships changed but for their ids and mappings. -/
def Table.Relabels (t t' : Table) : Prop :=
  t'.id = t.id ∧ List.Forall₂ (fun r r' : Relationship => r'.id = r.id ∧ r'.columns = r.columns)
    t.relationships t'.relationships

instance : IsPreorder Table Table.Relabels where
  refl _ := ⟨rfl, List.forall₂_same.2 fun _ _ => ⟨rfl, rfl⟩⟩
  trans _ _ _ h₁ h₂ := ⟨h₂.1.trans h₁.1,
    forall₂_trans (fun _ _ _ a b => ⟨b.1.trans a.1, b.2.trans a.2⟩) h₁.2 h₂.2⟩

theorem Table.relabels_changeRelationship (t : Table) (rid : Id) {f : Relationship → Relationship}
    (hid : ∀ r, (f r).id = r.id) (hcols : ∀ r, (f r).columns = r.columns) :
    t.Relabels (t.changeRelationship rid f) :=
  ⟨rfl, forall₂_updateFirst (fun _ => ⟨rfl, rfl⟩) _ _ _ fun r _ => ⟨hid r, hcols r⟩⟩

namespace Database

variable {db db' : Database} {sid hid rid : Id}

theorem HeldAt.of_relabels (h : db.HeldAt sid rid hid) (hg : db.Tablewise Table.Relabels db') :
    db'.HeldAt sid rid hid :=
  h.of_tablewise (fun t t' htt => ⟨htt.1, fun r' hr' => by
    obtain ⟨r, hr, hrr⟩ := forall₂_exists_of_mem_right htt.2 hr'
    exact ⟨r, hr, hrr.1.symm⟩⟩) hg

theorem Filled.of_relabels (h : db.Filled sid hid rid) (hg : db.Tablewise Table.Relabels db') :
    db'.Filled sid hid rid := by
  intro t' ht' r' hr' hnil
  obtain ⟨t, ht, htt⟩ := hg.findsTable (fun _ _ h => h.1) ht'
  obtain ⟨r, hr, hrr⟩ := forall₂_find? (fun _ _ h => by rw [h.1]) htt.2 hr'
  exact h t ht r hr (hrr.2 ▸ hnil)

end Database

theorem Table.relationship?_append_fresh {t : Table} {r : Relationship}
    (hfresh : ∀ o ∈ t.relationships, o.id ≠ r.id) :
    ({ t with relationships := t.relationships ++ [r] } : Table).relationship? r.id = some r := by
  have hnone : t.relationships.find? (·.id = r.id) = none :=
    List.find?_eq_none.2 fun o ho => by simpa using hfresh o ho
  simp [Table.relationship?, List.find?_append, hnone]

/-! ## Mappings of a new relationship -/

/-- A mapping the checks let through names columns not seen before, and the mappings after it
are checked with both seen. -/
theorem RelationshipDraft.checkMappings_go_cons {d : RelationshipDraft} {holder provider : Table}
    {m : MappingDraft} {ms : List MappingDraft} {pks fks : List Id}
    (h : RelationshipDraft.checkMappings.go d holder provider (m :: ms) pks fks = .ok ()) :
    m.pkColumnId ∉ pks ∧ m.fkColumnId ∉ fks ∧ RelationshipDraft.checkMappings.go d holder provider
      ms (m.pkColumnId :: pks) (m.fkColumnId :: fks) = .ok () := by
  simp only [RelationshipDraft.checkMappings.go] at h
  split at h
  · split at h
    · cases h
    · split at h
      · cases h
      · next hpk hfk =>
        refine ⟨by simpa using hpk, by simpa using hfk, ?_⟩
        split at h
        · split at h
          · cases h
          · exact h
        · exact h
  · cases h

theorem nodup_cons_of_unseen {xs seen : List Id} {x : Id} (hx : x ∉ seen)
    (h : xs.Nodup ∧ ∀ y ∈ xs, y ∉ x :: seen) : (x :: xs).Nodup ∧ ∀ y ∈ x :: xs, y ∉ seen := by
  refine ⟨List.nodup_cons.2 ⟨fun hm => h.2 x hm List.mem_cons_self, h.1⟩, ?_⟩
  rintro y (_ | ⟨_, hy⟩)
  · exact hx
  · exact fun hs => h.2 y hy (List.mem_cons_of_mem _ hs)

/-- The scan of the mappings refuses a provider or holder column seen before. -/
theorem RelationshipDraft.checkMappings_go_nodup {d : RelationshipDraft} {holder provider : Table} :
    ∀ {ms : List MappingDraft} {pks fks : List Id},
      RelationshipDraft.checkMappings.go d holder provider ms pks fks = .ok () →
      ((ms.map (·.pkColumnId)).Nodup ∧ ∀ y ∈ ms.map (·.pkColumnId), y ∉ pks) ∧
        ((ms.map (·.fkColumnId)).Nodup ∧ ∀ y ∈ ms.map (·.fkColumnId), y ∉ fks)
  | [], _, _, _ => ⟨⟨List.nodup_nil, by simp⟩, ⟨List.nodup_nil, by simp⟩⟩
  | _ :: _, _, _, h => by
    obtain ⟨hpk, hfk, hrest⟩ := checkMappings_go_cons h
    obtain ⟨hp, hf⟩ := checkMappings_go_nodup hrest
    exact ⟨nodup_cons_of_unseen hpk hp, nodup_cons_of_unseen hfk hf⟩

theorem RelationshipDraft.checkMappings_nodup {d : RelationshipDraft} {holder provider : Table}
    (h : d.checkMappings holder provider = .ok ()) :
    (d.columns.map (·.pkColumnId)).Nodup ∧ (d.columns.map (·.fkColumnId)).Nodup :=
  ⟨(checkMappings_go_nodup h).1.1, (checkMappings_go_nodup h).2.1⟩

namespace EditM

/-! ## Steps -/

theorem KeepsFrom.bind_keys {α β : Type} {P Q : Database → Prop} {x : EditM α} {f : α → EditM β}
    (hx : KeepsFrom P Database.KeepsKeysSound x) (hQ : KeepsFrom P (fun _ db' => Q db') x)
    (hf : ∀ a, KeepsFrom (fun db => db.KeysSound ∧ Q db) Database.KeepsKeysSound (f a)) :
    KeepsFrom P Database.KeepsKeysSound (x >>= f) := by
  intro st b st'' hp h hk
  obtain ⟨a, st', h₁, h₂⟩ := run_bind_ok h
  have hk' := hx st a st' hp h₁ hk
  exact hf a st' b st'' ⟨hk', hQ st a st' hp h₁⟩ h₂ hk'

theorem KeepsFrom.of_fact {α : Type} {P : Database → Prop} {R : Database → Database → Prop}
    {c : Prop} {x : EditM α} (h : c → KeepsFrom P R x) : KeepsFrom (fun db => P db ∧ c) R x :=
  fun st a st' hp hx => h hp.2 st a st' hp.1 hx

theorem keeps_modifySchema_keys {sid : Id} {g : Schema → Schema}
    (hg : ∀ s, (∀ t ∈ s.tables, t.KeysSound) → ∀ t ∈ (g s).tables, t.KeysSound) :
    Keeps Database.KeepsKeysSound (modifySchema sid g) :=
  KeepsFrom.keeps (keepsFrom_modifySchema fun _ _ _ _ hk =>
    forall_mem_updateFirst hk fun s hs => hg s (hk s (List.mem_of_find?_eq_some hs)))

theorem keeps_modifyTable_carry {sid tid : Id} {f : Table → Table} {T : Table → Prop}
    (hid : ∀ t, (f t).id = t.id) (hT : ∀ t, T t → T (f t)) :
    Keeps (fun db db' => (∀ t, db.FindsTable sid tid t → T t) → ∀ t, db'.FindsTable sid tid t → T t)
      (modifyTable sid tid f) := by
  intro st u st' h hq t' ht'
  rw [(modifyTable_run h).1, Database.findsTable_updateTable fun t ht => (hid t).trans ht] at ht'
  obtain ⟨t, ht, rfl⟩ := ht'
  exact hT t (hq t ht)

/-- A change of the table found, checked as the last step. -/
theorem keepsFrom_modifyTable_checkLast {P : Database → Prop} {sid tid : Id} {f : Table → Table}
    {chk : Table → Except DesignError Unit} (hid : ∀ t, t.id = tid → (f t).id = tid)
    (hf : ∀ db t, P db → db.FindsTable sid tid t → t.KeysSound → chk (f t) = .ok () →
      (f t).KeysSound) :
    KeepsFrom P Database.KeepsKeysSound
      (modifyTable sid tid f >>= fun _ => table sid tid >>= fun t => check (chk t)) := by
  have h : KeepsFrom P Database.KeepsKeysSound (modifyTable sid tid f >>= fun _ =>
      table sid tid >>= fun t => check (chk t) >>= fun _ => pure ()) :=
    keepsFrom_modifyTable_check hid hf fun _ => Keeps.pure _
  simpa only [bind_pure_unit] using h

theorem reads_notNullConstraint_shape (tid cid : Id) (name : String) :
    Reads (fun k _ => ∃ id eid, k = ⟨id, tid, name, .notNull, none, none, [⟨eid, cid, 1⟩]⟩)
      (notNullConstraint tid cid name) :=
  Reads.bind_keeps keeps_mint fun _ => Reads.bind_keeps keeps_mint fun _ =>
    Reads.pure fun _ => ⟨_, _, rfl⟩

/-- A NOT_NULL constraint appended to the table `tid`, while no NOT_NULL constraint of it holds
the column, before steps that keep sound keys. -/
theorem keepsKeys_appendNotNull {β : Type} (sid tid cid : Id) (name : String)
    {f : Unit → EditM β} (hf : ∀ u, Keeps Database.KeepsKeysSound (f u)) :
    KeepsFrom (fun db => ∀ t, db.FindsTable sid tid t → t.hasNotNull cid = false)
      Database.KeepsKeysSound (notNullConstraint tid cid name >>= fun k =>
        modifyTable sid tid (fun t => { t with constraints := t.constraints ++ [k] }) >>= f) := by
  refine KeepsFrom.bind_reads (reads_notNullConstraint_shape _ _ _) fun k => ?_
  refine KeepsFrom.bind (keepsFrom_modifyTable_keys fun db t hp ht hk => ?_) hf
  obtain ⟨hnn, id, eid, rfl⟩ := hp
  exact hk.appendNotNull (hnn t ht)

/-! ## Schemas and tables -/

theorem keepsKeys_createSchema (d : SchemaDraft) :
    Keeps Database.KeepsKeysSound (createSchema d) := by
  unfold createSchema
  refine Keeps.bind (reads_checkSchemaName _ _).keeps.of_eq fun _ => ?_
  refine Keeps.bind (keeps_ensureFreshId _ _).of_eq fun _ => ?_
  refine Keeps.bind_reads reads_database fun db => ?_
  refine keepsFrom_setDatabase fun db₀ hdb hk => ?_
  subst hdb
  intro s hs t ht
  rcases List.mem_append.1 hs with hs | hs
  · exact hk s hs t ht
  · -- the new schema has no tables
    simp [List.mem_singleton.1 hs] at ht

theorem keepsKeys_deleteSchema (sid : Id) : Keeps Database.KeepsKeysSound (deleteSchema sid) := by
  unfold deleteSchema
  refine Keeps.bind (keeps_schema _).of_eq fun _ => ?_
  refine Keeps.bind_reads reads_database fun db => ?_
  refine KeepsFrom.bind_eq keeps_config fun _ => ?_
  have hdrop : KeepsFrom (fun db₀ => db = db₀) Database.KeepsKeysSound
      (setDatabase { db with schemas := db.schemas.filter (·.id ≠ sid) }) :=
    keepsFrom_setDatabase fun _ hdb hk s hs => (hdb ▸ hk) s (List.mem_filter.1 hs).1
  dsimp only
  split
  · exact (Keeps.throw_bind _ _).keepsFrom
  · exact hdrop

theorem keepsKeys_changeSchemaName (sid : Id) (name : String) :
    Keeps Database.KeepsKeysSound (changeSchemaName sid name) := by
  unfold changeSchemaName
  refine Keeps.bind (keeps_schema _).of_eq fun _ => ?_
  refine Keeps.bind (reads_checkSchemaName _ _).keeps.of_eq fun _ => ?_
  exact keeps_modifySchema_keys fun _ h => h

theorem keepsKeys_createTable (sid : Id) (d : TableDraft) :
    Keeps Database.KeepsKeysSound (createTable sid d) := by
  unfold createTable
  refine Keeps.bind (reads_checkTableName _ _ _).keeps.of_eq fun _ => ?_
  refine Keeps.bind (keeps_ensureFreshId _ _).of_eq fun _ => ?_
  exact keeps_modifySchema_keys fun _ h =>
    forall_mem_append_singleton h (Table.keysSound_of_nil rfl rfl rfl)

theorem keepsKeys_deleteTable (sid tid : Id) : Keeps Database.KeepsKeysSound (deleteTable sid tid) := by
  unfold deleteTable
  refine Keeps.bind (keeps_table _ _).of_eq fun _ => Keeps.bind (keeps_schema _).of_eq fun _ => ?_
  refine Keeps.bind (Keeps.forM (fun _ => ?_) _) fun _ =>
    keeps_modifySchema_keys fun _ h t ht => h t (List.mem_filter.1 ht).1
  refine Keeps.bind (keeps_schema _).of_eq fun _ => ?_
  split
  · exact keepsKeys_deleteRelationship _ _
  · exact Keeps.pure _

theorem keepsKeys_changeTableName (sid tid : Id) (name : String) :
    Keeps Database.KeepsKeysSound (changeTableName sid tid name) := by
  unfold changeTableName
  refine Keeps.bind (keeps_table _ _).of_eq fun _ => ?_
  refine Keeps.bind (reads_checkTableName _ _ _).keeps.of_eq fun _ => ?_
  exact keeps_modifyTable_keys fun _ h => h.of_keys_eq rfl rfl rfl

theorem keepsKeys_changeTableComment (sid tid : Id) (comment : Option String) :
    Keeps Database.KeepsKeysSound (changeTableComment sid tid comment) :=
  keeps_modifyTable_keys fun _ h => h.of_keys_eq rfl rfl rfl

/-! ## Columns -/

/-- Storing a new column keeps sound keys, and leaves the NOT_NULL constraints of its table as
they are, before steps that keep sound keys while none of them holds `x`. -/
theorem keepsKeys_storeColumn {β : Type} {sid tid : Id} (i : Nat) (c : Column) (x : Id)
    {f : Unit → EditM β}
    (hf : ∀ u, KeepsFrom (fun db => ∀ t, db.FindsTable sid tid t → t.hasNotNull x = false)
      Database.KeepsKeysSound (f u)) :
    KeepsFrom (fun db => ∀ t, db.FindsTable sid tid t → t.hasNotNull x = false)
      Database.KeepsKeysSound ((modifyTable sid tid fun t =>
        ({ t with columns := insertAt t.columns i c } : Table).resequenceColumns) >>= f) := by
  refine (KeepsFrom.bind_carry (keeps_modifyTable_keys fun _ h => ?_).keepsFrom
    (keeps_modifyTable_carry (fun _ => ?_) fun _ h => ?_).keepsFrom hf).mono_left fun _ h => ⟨h, h⟩
  · exact h.of_keys_eq rfl rfl rfl
  · rfl
  · exact h

/-- Creating a column: no constraint of its table is on it yet, as its id is fresh, so its
NOT_NULL constraint repeats no definition; then the key grows by it. -/
theorem keepsKeys_createColumn (sid tid : Id) (d : ColumnDraft) :
    KeepsFrom Database.KeyBase Database.KeepsKeysSound (createColumn sid tid d) := by
  unfold createColumn
  simp only [pure_bind, bind_map_left]
  refine KeepsFrom.bind_eq (keeps_schema _) fun _ => ?_
  refine KeepsFrom.bind_eq (keeps_checkColumnName _ _ _ _) fun _ => ?_
  refine KeepsFrom.bind_reads (reads_ensureFreshId _ _) fun _ => ?_
  refine KeepsFrom.mono_left (?_ : KeepsFrom
    (fun db => ∀ t, db.FindsTable sid tid t → t.hasNotNull d.id = false) _ _)
    fun db hp t ht => hp.1.hasNotNull_fresh ht hp.2
  refine KeepsFrom.bind_eq (keeps_check _) fun _ => ?_
  refine KeepsFrom.bind_eq (keeps_table _ _) fun t => ?_
  -- past the auto-increment check or not, the same steps follow
  refine KeepsFrom.ite (fun _ => KeepsFrom.bind_eq (keeps_check _) fun _ => ?_) fun _ => ?_
  all_goals
    refine KeepsFrom.ite (fun _ => (Keeps.throw_bind _ _).keepsFrom) fun _ => ?_
    have hkey : Keeps Database.KeepsKeysSound (if d.primaryKey = true then
        addToPrimaryKey sid tid [d.id] >>= fun _ => propagateKeys sid tid [d.id] >>= fun _ => pure ()
        else pure ()) :=
      Keeps.ite (fun _ => Keeps.bind (keepsKeys_addToPrimaryKey _ _ (by simp)) fun _ =>
        Keeps.bind (keepsKeys_propagateKeys _ _ _) fun _ => Keeps.pure _) fun _ => Keeps.pure _
    refine KeepsFrom.ite (fun _ => keepsKeys_storeColumn _ _ _ fun _ => hkey.keepsFrom) fun _ => ?_
    refine KeepsFrom.bind_eq (keeps_freshConstraintName _ _) fun _ => ?_
    exact keepsKeys_storeColumn _ _ _ fun _ => keepsKeys_appendNotNull _ _ _ _ fun _ => hkey

theorem keepsKeys_deleteColumn (sid tid cid : Id) :
    Keeps Database.KeepsKeysSound (deleteColumn sid tid cid) :=
  keeps_deleteColumn_of (keepsKeys_cascadeKeyRemoval sid)
    (keeps_modifyTable_keys fun _ h => h.detachColumn _)

theorem keepsKeys_changeColumnName (sid tid cid : Id) (name : String) :
    Keeps Database.KeepsKeysSound (changeColumnName sid tid cid name) := by
  unfold changeColumnName
  refine Keeps.bind (keeps_column _ _ _).of_eq fun _ => ?_
  refine Keeps.bind (reads_checkColumnName _ _ _ _).keeps.of_eq fun _ => ?_
  exact keeps_modifyTable_keys fun _ h => h.of_keys_eq rfl rfl rfl

theorem keepsKeys_changeColumnType (sid tid cid : Id) (dataType : Option String)
    (ls : Option LengthScale) :
    Keeps Database.KeepsKeysSound (changeColumnType sid tid cid dataType ls) :=
  keeps_changeColumnType_of (keeps_modifyTable_keys fun _ h => h.of_keys_eq rfl rfl rfl) (keepsKeys_mirrorTypeChange _ _ _ _ _)

theorem keepsKeys_changeColumnPosition (sid tid cid : Id) (position : Nat) :
    Keeps Database.KeepsKeysSound (changeColumnPosition sid tid cid position) := by
  unfold changeColumnPosition
  dsimp only
  refine Keeps.bind (keeps_column _ _ _).of_eq fun _ => ?_
  refine Keeps.bind_reads (reads_table _ _) fun t => ?_
  split
  · exact (Keeps.throw_bind _ _).keepsFrom
  split
  · exact (Keeps.pure _).keepsFrom
  · exact keepsFrom_putTable_keys fun h => h.of_keys_eq rfl rfl rfl

/-- Making a column non-nullable adds its NOT_NULL constraint only when the table read has
none. -/
theorem keepsKeys_changeColumnNullable (sid tid cid : Id) (nullable : Bool) :
    Keeps Database.KeepsKeysSound (changeColumnNullable sid tid cid nullable) := by
  unfold changeColumnNullable addNotNull
  dsimp only
  refine Keeps.bind (keeps_schema _).of_eq fun _ => Keeps.bind (keeps_column _ _ _).of_eq fun _ => ?_
  refine Keeps.bind (keeps_checkColumnName _ _ _ _) fun _ => Keeps.bind (keeps_check _).of_eq fun _ => ?_
  refine Keeps.bind_reads (reads_table _ _) fun t => ?_
  refine KeepsFrom.ite (fun _ => KeepsFrom.bind_eq (keeps_check _) fun _ => ?_) fun _ => ?_
  all_goals
    refine KeepsFrom.ite (fun _ => ?_) fun _ => ?_
    · refine KeepsFrom.ite (fun _ => (Keeps.throw_bind _ _).keepsFrom) fun _ => ?_
      exact (keeps_modifyTable_keys fun _ h => h.filterConstraints _).keepsFrom
    · refine KeepsFrom.bind_eq (keeps_ensureNotSetNullTarget _ _ _) fun _ => ?_
      refine KeepsFrom.ite (fun hnn => ?_) fun _ => (Keeps.pure _).keepsFrom
      refine KeepsFrom.bind_eq (keeps_freshConstraintName _ _) fun name => ?_
      have hbind := keepsKeys_appendNotNull sid tid cid name fun _ => Keeps.pure ()
      simp only [bind_pure_unit] at hbind
      refine hbind.mono_left fun db ht t' ht' => ?_
      rw [ht'.unique ht]
      simpa using hnn

theorem keepsKeys_changeColumnAutoIncrement (sid tid cid : Id) (enabled : Bool) :
    Keeps Database.KeepsKeysSound (changeColumnAutoIncrement sid tid cid enabled) :=
  keeps_changeColumnAutoIncrement_of (keeps_modifyTable_keys fun _ h => h.of_keys_eq rfl rfl rfl)

/-! ## Indexes -/

/-- The entries a fold over drafts builds, one per draft on the draft's column after refusing a
column already there, hold the drafts' columns, each once. -/
theorem returns_distinct_zipIdx {δ ε : Type} (col : ε → Id) (dcol : δ → Id)
    {f : List ε → δ × Nat → EditM (List ε)}
    (hf : ∀ acc d n, Returns (fun acc' => ∃ e, col e = dcol d ∧ dcol d ∉ acc.map col ∧
      acc' = acc ++ [e]) (f acc (d, n))) :
    ∀ (ds : List δ) (acc : List ε) (n : Nat), (acc.map col).Nodup →
      Returns (fun acc' => acc'.map col = acc.map col ++ ds.map dcol ∧ (acc'.map col).Nodup)
        ((ds.zipIdx n).foldlM f acc)
  | [], acc, _, h => Returns.pure ⟨by simp, h⟩
  | d :: ds, acc, n, h => by
    rw [List.zipIdx_cons, List.foldlM_cons]
    refine Returns.bind (hf acc d n) fun acc' hacc' => ?_
    obtain ⟨e, he, hnew, rfl⟩ := hacc'
    have hnd : ((acc ++ [e]).map col).Nodup :=
      nodup_map_append_new h fun y hy hye => hnew (he ▸ hye ▸ List.mem_map_of_mem hy)
    intro st a st' hr
    obtain ⟨hmap, hnd'⟩ := returns_distinct_zipIdx col dcol hf ds (acc ++ [e]) (n + 1) hnd st a st' hr
    exact ⟨by simp [hmap, he], hnd'⟩

theorem returns_distinct_zipIdx_nil {δ ε : Type} (col : ε → Id) (dcol : δ → Id)
    {f : List ε → δ × Nat → EditM (List ε)}
    (hf : ∀ acc d n, Returns (fun acc' => ∃ e, col e = dcol d ∧ dcol d ∉ acc.map col ∧
      acc' = acc ++ [e]) (f acc (d, n))) (ds : List δ) (n : Nat) :
    Returns (fun acc' => acc'.map col = ds.map dcol ∧ (acc'.map col).Nodup)
      ((ds.zipIdx n).foldlM f []) := by
  intro st a st' hr
  obtain ⟨hmap, hnd⟩ := returns_distinct_zipIdx col dcol hf ds [] n List.nodup_nil st a st' hr
  exact ⟨by simpa using hmap, hnd⟩

theorem Returns.throw_bind {α β : Type} {Q : β → Prop} (e : DesignError) (f : α → EditM β) :
    Returns Q (MonadExcept.throw e >>= f) := by
  intro st b st'' h
  obtain ⟨a, st', h₁, -⟩ := run_bind_ok h
  cases h₁

theorem reads_indexColumns_distinct (sid tid : Id) (name : String) (ds : List IndexColumnDraft) :
    Reads (fun cols _ => cols.map (·.columnId) = ds.map (·.columnId) ∧
      (cols.map (·.columnId)).Nodup) (indexColumns sid tid name ds) := by
  refine Reads.of_returns (keeps_indexColumns sid tid name ds) ?_
  unfold indexColumns
  refine returns_distinct_zipIdx_nil IndexColumn.columnId IndexColumnDraft.columnId
    (fun acc d n => ?_) ds 1
  dsimp only
  refine Returns.bind_right fun _ => Returns.bind_right fun _ => ?_
  split
  · exact Returns.throw_bind _ _
  · next hnew => exact Returns.pure ⟨_, rfl, by simpa using hnew, rfl⟩

theorem keepsKeys_createIndex (sid tid : Id) (d : IndexDraft) :
    KeepsFrom Database.KeyBase Database.KeepsKeysSound (createIndex sid tid d) := by
  unfold createIndex
  dsimp only
  refine KeepsFrom.bind_eq (keeps_schema _) fun _ => ?_
  refine KeepsFrom.bind_eq (keeps_table _ _) fun _ => ?_
  refine KeepsFrom.bind_eq (reads_checkIndexName _ _ _).keeps fun _ => ?_
  refine KeepsFrom.bind_reads (reads_ensureFreshId _ _) fun _ => ?_
  refine KeepsFrom.ite (fun _ => (Keeps.throw_bind _ _).keepsFrom) fun _ => ?_
  refine KeepsFrom.ite (fun _ => (Keeps.throw_bind _ _).keepsFrom) fun hne => ?_
  refine KeepsFrom.bind_reads (reads_indexColumns_distinct _ _ _ _) fun cols => ?_
  refine keepsFrom_modifyTable_checkLast (fun _ h => h) fun db t hp ht hk hchk => ?_
  obtain ⟨⟨hb, hfresh⟩, hmap, hnd⟩ := hp
  have hwf : Index.WellFormed ⟨d.id, tid, d.name, d.indexType, cols⟩ := by
    refine ⟨fun hnil => hne ?_, hnd⟩
    have hcols : cols = [] := hnil
    rw [hcols, List.map_nil, eq_comm, List.map_eq_nil_iff] at hmap
    simp [hmap]
  exact hk.appendIndex (hb.indexIds_nodup ht) (Table.indexId_ne (ht.not_mem_ids hfresh)) hwf hchk

theorem keepsKeys_deleteIndex (sid tid iid : Id) :
    Keeps Database.KeepsKeysSound (deleteIndex sid tid iid) :=
  Keeps.bind (keeps_index _ _ _) fun _ => keeps_modifyTable_keys fun _ h => h.filterIndexes _

theorem keepsKeys_changeIndexName (sid tid iid : Id) (name : String) :
    Keeps Database.KeepsKeysSound (changeIndexName sid tid iid name) := by
  unfold changeIndexName
  refine Keeps.bind (keeps_index _ _ _) fun _ => ?_
  refine Keeps.bind (reads_checkIndexName _ _ _).keeps.of_eq fun _ => ?_
  exact keeps_modifyTable_keys fun _ h => h.updateIndex_of_signature fun _ => rfl

/-- A column the index does not hold, appended to it. -/
theorem keepsKeys_addColumnToIndex (sid tid iid : Id) (d : IndexColumnDraft) :
    KeepsFrom Database.KeyBase Database.KeepsKeysSound (addColumnToIndex sid tid iid d) := by
  unfold addColumnToIndex
  dsimp only
  refine KeepsFrom.bind_eq (keeps_column _ _ _) fun _ => ?_
  refine KeepsFrom.bind_eq (keeps_ensureFreshId _ _) fun _ => ?_
  refine KeepsFrom.bind_reads (reads_index _ _ _) fun i => ?_
  refine KeepsFrom.ite (fun _ => (Keeps.throw_bind _ _).keepsFrom) fun hnew => ?_
  refine keepsFrom_modifyTable_checkLast (fun _ h => h) fun db t' hp ht' hk hchk => ?_
  obtain ⟨hb, t, ht, hi⟩ := hp
  obtain rfl := ht'.unique ht
  have hwf : i.WellFormed := hk.indexes.wellFormed i (List.mem_of_find?_eq_some hi)
  exact hk.updateIndex (hb.indexIds_nodup ht) (fun _ => rfl) hi
    (hwf.append (by simpa using hnew)) hchk

/-- An entry taken out of an index; an index left without entries is dropped. -/
theorem keepsKeys_removeColumnFromIndex (sid tid iid eid : Id) :
    KeepsFrom Database.KeyBase Database.KeepsKeysSound (removeColumnFromIndex sid tid iid eid) := by
  unfold removeColumnFromIndex
  dsimp only
  refine KeepsFrom.bind_reads (reads_index _ _ _) fun i => ?_
  refine KeepsFrom.ite (fun _ => (Keeps.throw_bind _ _).keepsFrom) fun _ => ?_
  refine KeepsFrom.ite (fun _ => (keeps_modifyTable_keys fun _ h => h.filterIndexes _).keepsFrom)
    fun hne => ?_
  refine keepsFrom_modifyTable_checkLast (fun _ h => h) fun db t' hp ht' hk hchk => ?_
  obtain ⟨hb, t, ht, hi⟩ := hp
  obtain rfl := ht'.unique ht
  have hwf : i.WellFormed := hk.indexes.wellFormed i (List.mem_of_find?_eq_some hi)
  exact hk.updateIndex (hb.indexIds_nodup ht) (fun _ => rfl) hi
    (hwf.renumber_filter _ (by simpa [renumber] using hne)) hchk

theorem keepsKeys_changeIndexColumnSortDir (sid tid iid eid : Id) (sortDir : SortDir) :
    KeepsFrom Database.KeyBase Database.KeepsKeysSound
      (changeIndexColumnSortDir sid tid iid eid sortDir) := by
  unfold changeIndexColumnSortDir
  dsimp only
  refine KeepsFrom.bind_reads (reads_index _ _ _) fun i => ?_
  refine KeepsFrom.ite (fun _ => (Keeps.throw_bind _ _).keepsFrom) fun _ => ?_
  refine keepsFrom_modifyTable_checkLast (fun _ h => h) fun db t' hp ht' hk hchk => ?_
  obtain ⟨hb, t, ht, hi⟩ := hp
  obtain rfl := ht'.unique ht
  have hwf : i.WellFormed := hk.indexes.wellFormed i (List.mem_of_find?_eq_some hi)
  exact hk.updateIndex (hb.indexIds_nodup ht) (fun _ => rfl) hi
    (hwf.of_columnIds (map_updateFirst_of_key _ fun _ _ => rfl)) hchk

/-! ## Constraints -/

theorem reads_constraintColumns_distinct (sid tid : Id) (name : String)
    (ds : List ConstraintColumnDraft) :
    Reads (fun cols _ => cols.map (·.columnId) = ds.map (·.columnId) ∧
      (cols.map (·.columnId)).Nodup) (constraintColumns sid tid name ds) := by
  refine Reads.of_returns (keeps_constraintColumns sid tid name ds) ?_
  unfold constraintColumns
  refine returns_distinct_zipIdx_nil ConstraintColumn.columnId ConstraintColumnDraft.columnId
    (fun acc d n => ?_) ds 1
  dsimp only
  refine Returns.bind_right fun _ => Returns.bind_right fun _ => ?_
  split
  · exact Returns.throw_bind _ _
  · next hnew => exact Returns.pure ⟨_, rfl, by simpa using hnew, rfl⟩

/-- A constraint made of a draft that passed the checks of `createConstraint`: with columns,
each once, one for the kinds that hold one, and the expression its kind needs. -/
theorem ConstraintDraft.wellFormed_of_checks {d : ConstraintDraft} {tid : Id}
    {cols : List ConstraintColumn} (hmap : cols.map (·.columnId) = d.columns.map (·.columnId))
    (hnd : (cols.map (·.columnId)).Nodup) (hne : ¬d.columns.isEmpty = true)
    (hsingle : ¬(d.kind.isSingleColumn && decide (d.columns.length ≠ 1)) = true)
    (hexpr : ¬(!(d.expression.any fun e => !(trimBlanks e).isEmpty)) = true) :
    Constraint.WellFormed ⟨d.id, tid, d.name, d.kind, if d.kind = .check then d.checkExpr else none,
      if d.kind = .defaultValue then d.defaultExpr else none, cols⟩ := by
  have hlen : cols.length = d.columns.length := by simpa using congrArg List.length hmap
  refine ⟨fun hnil => hne ?_, fun hs => ?_, fun (hk : d.kind = .check) => ?_,
    fun (hk : d.kind = .defaultValue) => ?_, hnd⟩
  · have hcols : cols = [] := hnil
    simpa [hcols] using hlen.symm
  · show cols.length = 1
    simpa [hlen, hs] using hsingle
  · show (if d.kind = .check then d.checkExpr else none).any
      (fun e => !(trimBlanks e).isEmpty) = true
    rw [if_pos hk]
    simpa [ConstraintDraft.expression, hk] using hexpr
  · show (if d.kind = .defaultValue then d.defaultExpr else none).any
      (fun e => !(trimBlanks e).isEmpty) = true
    rw [if_pos hk]
    simpa [ConstraintDraft.expression, hk] using hexpr

/-- Creating a constraint: a new id, a well-formed definition, a key only on a table without
one, checked against the other definitions; a key propagates. -/
theorem keepsKeys_createConstraint (sid tid : Id) (d : ConstraintDraft) :
    KeepsFrom Database.KeyBase Database.KeepsKeysSound (createConstraint sid tid d) := by
  unfold createConstraint
  dsimp only
  refine KeepsFrom.bind_reads (reads_table _ _) fun t => ?_
  refine KeepsFrom.bind_eq (reads_checkConstraintName _ _ _).keeps fun _ => ?_
  refine KeepsFrom.bind_reads (reads_ensureFreshId _ _) fun _ => ?_
  refine KeepsFrom.ite (fun _ => (Keeps.throw_bind _ _).keepsFrom) fun hne => ?_
  refine KeepsFrom.ite (fun _ => (Keeps.throw_bind _ _).keepsFrom) fun hsingle => ?_
  refine KeepsFrom.ite (fun _ => (Keeps.throw_bind _ _).keepsFrom) fun hexpr => ?_
  refine KeepsFrom.ite (fun _ => (Keeps.throw_bind _ _).keepsFrom) fun hpk => ?_
  refine KeepsFrom.bind_reads (reads_constraintColumns_distinct _ _ _ _) fun cols => ?_
  refine KeepsFrom.bind_eq (keeps_ensureNullabilityAllowed _ _ _ _) fun _ => ?_
  refine keepsFrom_modifyTable_check (fun _ h => h) (fun db t' hp ht' hk hchk => ?_) fun _ =>
    Keeps.ite (fun _ => Keeps.bind (keepsKeys_propagateKeys _ _ _) fun _ => Keeps.pure _)
      fun _ => Keeps.pure _
  obtain ⟨⟨⟨hb, ht⟩, hfresh⟩, hmap, hnd⟩ := hp
  obtain rfl := ht'.unique ht
  -- a key only where the table read had none
  have hkey : decide (d.kind = .primaryKey) = true → t'.primaryKey? = none := fun hk => by
    simpa [hk] using hpk
  exact hk.appendConstraint (hb.constraintIds_nodup ht) (Table.constraintId_ne (ht.not_mem_ids hfresh))
    (ConstraintDraft.wellFormed_of_checks hmap hnd hne hsingle hexpr) hkey hchk

theorem keepsKeys_deleteConstraint (sid tid kid : Id) :
    Keeps Database.KeepsKeysSound (deleteConstraint sid tid kid) :=
  keeps_deleteConstraint_of (keeps_modifyTable_keys fun _ h => h.filterConstraints _)
    (keepsKeys_cascadeKeyRemoval sid)

theorem keepsKeys_changeConstraintName (sid tid kid : Id) (name : String) :
    Keeps Database.KeepsKeysSound (changeConstraintName sid tid kid name) := by
  unfold changeConstraintName
  refine Keeps.bind (keeps_constraint _ _ _) fun _ => ?_
  refine Keeps.bind (reads_checkConstraintName _ _ _).keeps.of_eq fun _ => ?_
  exact keeps_modifyTable_keys fun _ h => h.updateConstraint_of_signature fun _ => rfl

/-- A column the constraint does not hold, appended to a constraint of a kind with several
columns; a key propagates it. -/
theorem keepsKeys_addColumnToConstraint (sid tid kid : Id) (d : ConstraintColumnDraft) :
    KeepsFrom Database.KeyBase Database.KeepsKeysSound (addColumnToConstraint sid tid kid d) := by
  unfold addColumnToConstraint
  dsimp only
  refine KeepsFrom.bind_eq (keeps_column _ _ _) fun _ => ?_
  refine KeepsFrom.bind_eq (keeps_ensureFreshId _ _) fun _ => ?_
  refine KeepsFrom.bind_reads (reads_constraint _ _ _) fun k => ?_
  refine KeepsFrom.bind_eq (keeps_ensureNullabilityAllowed _ _ _ _) fun _ => ?_
  refine KeepsFrom.ite (fun _ => (Keeps.throw_bind _ _).keepsFrom) fun hnew => ?_
  refine KeepsFrom.ite (fun _ => (Keeps.throw_bind _ _).keepsFrom) fun hs => ?_
  refine keepsFrom_modifyTable_check (fun _ h => h) (fun db t' hp ht' hk hchk => ?_) fun _ =>
    Keeps.ite (fun _ => Keeps.bind (keepsKeys_propagateKeys _ _ _) fun _ => Keeps.pure _)
      fun _ => Keeps.pure _
  obtain ⟨hb, t, ht, hkc⟩ := hp
  obtain rfl := ht'.unique ht
  have hwf : k.WellFormed := hk.constraints.wellFormed k (List.mem_of_find?_eq_some hkc)
  exact hk.updateConstraint (hb.constraintIds_nodup ht) (fun _ => rfl) (fun _ => rfl) hkc
    (hwf.append (by simpa using hnew) (by simpa using hs)) hchk

/-- An entry taken out of a constraint, a constraint left without entries dropped; a column
leaving the key takes what was derived from it along. -/
theorem keepsKeys_removeColumnFromConstraint (sid tid kid eid : Id) :
    KeepsFrom Database.KeyBase Database.KeepsKeysSound
      (removeColumnFromConstraint sid tid kid eid) := by
  unfold removeColumnFromConstraint
  dsimp only
  refine KeepsFrom.bind_reads (reads_constraint _ _ _) fun k => ?_
  split
  next entry _ =>
    have hcascade : Keeps Database.KeepsKeysSound (if k.isPrimaryKey = true then
        cascadeKeyRemoval sid [(tid, entry.columnId)] true >>= fun _ => pure () else pure ()) :=
      Keeps.ite (fun _ => Keeps.bind (keepsKeys_cascadeKeyRemoval _ _ _) fun _ => Keeps.pure _)
        fun _ => Keeps.pure _
    refine KeepsFrom.ite (fun _ => KeepsFrom.bind_eq (keeps_ensureKeyColumnRemovable _ _ _)
      fun _ => ?_) fun _ => ?_
    all_goals
      refine KeepsFrom.ite (fun _ => KeepsFrom.bind
        (keeps_modifyTable_keys fun _ h => h.filterConstraints _).keepsFrom fun _ => hcascade)
        fun hne => ?_
      refine keepsFrom_modifyTable_check (fun _ h => h) (fun db t' hp ht' hk hchk => ?_)
        fun _ => hcascade
      obtain ⟨hb, t, ht, hkc⟩ := hp
      obtain rfl := ht'.unique ht
      have hwf : k.WellFormed := hk.constraints.wellFormed k (List.mem_of_find?_eq_some hkc)
      exact hk.updateConstraint (hb.constraintIds_nodup ht) (fun _ => rfl) (fun _ => rfl) hkc
        (hwf.renumber_filter _ (by simpa [renumber] using hne)) hchk
  next => exact (Keeps.throw _).keepsFrom

/-! ## Relationships -/

theorem keepsKeys_changeRelationshipName (sid rid : Id) (name : String) :
    Keeps Database.KeepsKeysSound (changeRelationshipName sid rid name) := by
  unfold changeRelationshipName
  refine Keeps.bind (keeps_relationship _ _) fun _ => ?_
  refine Keeps.bind (reads_checkRelationshipName _ _ _ _).keeps.of_eq fun _ => ?_
  exact keepsKeys_modifyRelationship _ _ fun _ => rfl

theorem keepsKeys_changeRelationshipCardinality (sid rid : Id) (cardinality : Cardinality) :
    Keeps Database.KeepsKeysSound (changeRelationshipCardinality sid rid cardinality) :=
  Keeps.bind (keepsKeys_modifyRelationship _ _ fun _ => rfl) fun _ =>
    keeps_revalidateRelationship _ _

theorem keepsKeys_changeRelationshipActions (sid rid : Id)
    (onDelete onUpdate : ReferentialAction) :
    Keeps Database.KeepsKeysSound (changeRelationshipActions sid rid onDelete onUpdate) :=
  Keeps.bind (keepsKeys_modifyRelationship _ _ fun _ => rfl) fun _ =>
    keeps_revalidateRelationship _ _

/-- A mapping taken out of a relationship, which goes when it was the last; holder columns no
relationship maps any more are released. -/
theorem keepsKeys_removeColumnFromRelationship (sid rid mid : Id) :
    Keeps Database.KeepsKeysSound (removeColumnFromRelationship sid rid mid) := by
  unfold removeColumnFromRelationship
  dsimp only
  refine Keeps.bind (keeps_relationship _ _) fun found => ?_
  split
  next m _ =>
    refine Keeps.ite (fun _ => Keeps.bind (keeps_provider _ _) fun _ =>
      Keeps.ite (fun _ => Keeps.throw_bind _ _) fun _ => ?_) fun _ => ?_
    all_goals
      refine Keeps.bind (keeps_modifyTable_keys fun _ h => ?_) fun _ =>
        keepsKeys_releaseFkColumns _ _ _
      exact h.mapRelationships _ fun r hr => by
        split
        · exact hr.renumber_filter _
        · exact hr
  next => exact Keeps.throw _

theorem keeps_relabels_modifyRelationship (sid rid : Id) {f : Relationship → Relationship}
    (hid : ∀ r, (f r).id = r.id) (hcols : ∀ r, (f r).columns = r.columns) :
    Keeps (Database.Tablewise Table.Relabels) (modifyRelationship sid rid f) := by
  intro st u st' h
  obtain ⟨holder, r, -, t, ⟨s, hs, ht⟩, hdb⟩ := modifyRelationship_run h
  rw [hdb]
  exact tablewise_updateTable hs ht (t.relabels_changeRelationship rid hid hcols)

/-- Making a relationship identifying completes it; the holder alone holds it, and it keeps its
mappings. Making it non-identifying takes out of the key what only it kept there. -/
theorem keepsKeys_changeRelationshipKind (sid rid : Id) (kind : RelationshipKind) :
    KeepsFrom Database.KeyBase Database.KeepsKeysSound (changeRelationshipKind sid rid kind) := by
  unfold changeRelationshipKind
  refine KeepsFrom.bind_reads (reads_relationship _ _) fun found => ?_
  dsimp only
  refine KeepsFrom.ite (fun _ => (Keeps.pure _).keepsFrom) fun _ => ?_
  cases kind with
  | identifying =>
    refine KeepsFrom.bind_eq (keeps_schema _) fun _ => KeepsFrom.bind_eq (keeps_check _) fun _ => ?_
    refine KeepsFrom.bind_keys (Keeps.keepsFrom (keepsKeys_modifyRelationship _ _ fun _ => rfl)) ?_ fun _ =>
      KeepsFrom.bind (keepsKeys_completeIdentifying sid rid found.1.id) fun _ =>
        keeps_revalidateRelationship _ _
    intro st u st' hp h
    have hg : st.db.Tablewise Table.Relabels st'.db :=
      keeps_relabels_modifyRelationship sid rid (fun _ => by rfl) (fun _ => by rfl) st u st' h
    exact ⟨(hp.1.heldAt hp.2).of_relabels hg, (hp.1.filledAt _ _).of_relabels hg⟩
  | nonIdentifying =>
    refine Keeps.keepsFrom (Keeps.bind (keepsKeys_modifyRelationship _ _ fun _ => rfl) fun _ => ?_)
    refine Keeps.bind (keepsKeys_removeFromPrimaryKey _ _ _) fun _ => ?_
    exact Keeps.bind (keepsKeys_cascadeKeyRemoval _ _ _) fun _ => keeps_revalidateRelationship _ _

/-- A mapping of columns the relationship maps neither of; on an identifying relationship the
holder column joins the key. -/
theorem keepsKeys_addColumnToRelationship (sid rid : Id) (m : MappingDraft) :
    KeepsFrom Database.KeyBase Database.KeepsKeysSound (addColumnToRelationship sid rid m) := by
  unfold addColumnToRelationship
  refine KeepsFrom.bind_reads (reads_relationship _ _) fun found => ?_
  dsimp only
  refine KeepsFrom.bind_eq (keeps_provider _ _) fun p => ?_
  split
  next =>
    refine KeepsFrom.ite (fun _ => (Keeps.throw_bind _ _).keepsFrom) fun hpk => ?_
    refine KeepsFrom.ite (fun _ => (Keeps.throw_bind _ _).keepsFrom) fun hfk => ?_
    split
    refine KeepsFrom.ite (fun _ => (Keeps.throw_bind _ _).keepsFrom) fun _ => ?_
    all_goals
      refine KeepsFrom.bind ((keepsKeys_attachForeignKey _ _ _ _ _).mono_left fun _ hp =>
        hp.1.mapsNeither hp.2 (by simpa [MappingDraft.spec] using hpk)
          (by simpa [MappingDraft.spec] using hfk)) fun _ => ?_
      refine Keeps.bind (keeps_table _ _).of_eq fun _ => ?_
      refine Keeps.ite (fun _ => ?_) fun _ => keeps_revalidateRelationship _ _
      refine Keeps.bind (keepsKeys_addToPrimaryKey _ _ (List.cons_ne_nil _ _)) fun _ => ?_
      exact Keeps.bind (keepsKeys_propagateKeys _ _ _) fun _ => keeps_revalidateRelationship _ _
  next => exact (Keeps.throw _).keepsFrom

/-- Appending a relationship without mappings under an id the snapshot does not use: only its
holder holds it, and it maps no column. -/
theorem keeps_appendRelationship_fresh (sid hid : Id) {r : Relationship} (hcols : r.columns = [])
    (pks fks : List Id) :
    KeepsFrom (fun db => db.ids.Nodup ∧ db.usesId r.id = false)
      (fun _ db' => db'.Unmapped sid hid r.id pks fks ∧ db'.HeldAt sid r.id hid)
      (modifyTable sid hid fun t => { t with relationships := t.relationships ++ [r] }) := by
  intro st u st' ⟨hids, hfresh⟩ h
  obtain ⟨hdb, s, t, hs, -⟩ := modifyTable_run h
  rw [hdb]
  have hid : ∀ t : Table, ({ t with relationships := t.relationships ++ [r] } : Table).id = t.id :=
    fun _ => rfl
  refine ⟨fun t' ht' r' hr' => ?_, fun s' hs' => ?_⟩
  · -- the table found is the holder with the relationship appended, which finds the new one
    obtain ⟨t₀, ht₀, rfl⟩ := (Database.findsTable_updateTable fun t h => (hid t).trans h).1 ht'
    have hnew := Table.relationship?_append_fresh (Table.relationshipId_ne (ht₀.not_mem_ids hfresh))
    obtain rfl := Option.some.inj (hr'.symm.trans hnew)
    simp [Relationship.mapsPkColumn, Relationship.mapsFkColumn, hcols]
  · rw [Database.schema?_updateTable hs, Option.some_inj] at hs'
    subst hs'
    have hsm := List.mem_of_find?_eq_some hs
    refine ⟨?_, fun t' ht' r' hr' hrid => ?_⟩
    · dsimp only
      rw [map_updateFirst_of_key _ fun t _ => hid t]
      exact Database.tableIds_nodup hids hsm
    · rcases mem_updateFirst ht' with ht' | ⟨x, hx, rfl⟩
      · exact absurd hrid
          (Table.relationshipId_ne (Database.not_mem_table_ids hsm ht' hfresh) r' hr')
      · simpa using List.find?_some hx

/-- Creating a relationship: appended without mappings under a fresh id, it is mapped draft by
draft, each column once, then completed when identifying. -/
theorem keepsKeys_createRelationship (sid : Id) (d : RelationshipDraft) :
    KeepsFrom Database.KeyBase Database.KeepsKeysSound (createRelationship sid d) := by
  unfold createRelationship
  dsimp only
  refine KeepsFrom.bind_eq (keeps_table _ _) fun holder => ?_
  refine KeepsFrom.bind_eq (keeps_provider _ _) fun p => ?_
  refine KeepsFrom.bind_eq (reads_checkRelationshipName _ _ _ _).keeps fun _ => ?_
  refine KeepsFrom.bind_reads (reads_ensureFreshId _ _) fun _ => ?_
  refine KeepsFrom.ite (fun _ => (Keeps.throw_bind _ _).keepsFrom) fun hne => ?_
  refine KeepsFrom.bind_reads (reads_check _) fun _ => KeepsFrom.of_fact fun hmaps => ?_
  obtain ⟨hpks, hfks⟩ := RelationshipDraft.checkMappings_nodup hmaps
  refine KeepsFrom.ite (fun _ => KeepsFrom.bind_eq (keeps_schema _) fun _ =>
    KeepsFrom.bind_eq (keeps_check _) fun _ => ?_) fun _ => ?_
  all_goals
    refine KeepsFrom.bind_keys (keeps_modifyTable_keys fun _ h =>
        h.appendRelationship (Relationship.mapsOnce_of_columns_eq_nil rfl)).keepsFrom
      ((keeps_appendRelationship_fresh sid d.fkTableId rfl (d.columns.map (·.pkColumnId))
        (d.columns.map (·.fkColumnId))).mono_left fun _ hp => ⟨hp.1.ids, hp.2⟩) fun _ => ?_
    -- the loop maps every draft, each column once, and the relationship stays at its holder
    refine KeepsFrom.bind_keys
      ((keepsKeys_mapDrafts _ _ _ _ _).mono_left fun _ hp => ⟨hpks, hfks, hp.2.1⟩)
      ((keepsFrom_heldFilled_mapDrafts _ _ _ _ (by simpa using hne)).mono_left fun _ hp => hp.2.2)
      fun _ => ?_
    exact KeepsFrom.ite (fun _ => KeepsFrom.bind (keepsKeys_completeIdentifying _ _ _) fun _ =>
      keeps_revalidateRelationship _ _) fun _ => (keeps_revalidateRelationship _ _).keepsFrom

end EditM

namespace Operation

open EditM in
/-- Every operation keeps sound keys, from a snapshot that offers what the operations read. -/
theorem keepsKeys_run :
    ∀ op : Operation, KeepsFrom Database.KeyBase Database.KeepsKeysSound op.run
  | .createSchema d => (keepsKeys_createSchema d).keepsFrom
  | .deleteSchema s => (keepsKeys_deleteSchema s).keepsFrom
  | .changeSchemaName s n => (keepsKeys_changeSchemaName s n).keepsFrom
  | .createTable s d => (keepsKeys_createTable s d).keepsFrom
  | .deleteTable s t => (keepsKeys_deleteTable s t).keepsFrom
  | .changeTableName s t n => (keepsKeys_changeTableName s t n).keepsFrom
  | .changeTableComment s t c => (keepsKeys_changeTableComment s t c).keepsFrom
  | .createColumn s t d => keepsKeys_createColumn s t d
  | .deleteColumn s t c => (keepsKeys_deleteColumn s t c).keepsFrom
  | .changeColumnName s t c n => (keepsKeys_changeColumnName s t c n).keepsFrom
  | .changeColumnType s t c dt ls => (keepsKeys_changeColumnType s t c dt ls).keepsFrom
  | .changeColumnPosition s t c p => (keepsKeys_changeColumnPosition s t c p).keepsFrom
  | .changeColumnNullable s t c b => (keepsKeys_changeColumnNullable s t c b).keepsFrom
  | .changeColumnAutoIncrement s t c b => (keepsKeys_changeColumnAutoIncrement s t c b).keepsFrom
  | .createIndex s t d => keepsKeys_createIndex s t d
  | .deleteIndex s t i => (keepsKeys_deleteIndex s t i).keepsFrom
  | .changeIndexName s t i n => (keepsKeys_changeIndexName s t i n).keepsFrom
  | .addColumnToIndex s t i d => keepsKeys_addColumnToIndex s t i d
  | .removeColumnFromIndex s t i e => keepsKeys_removeColumnFromIndex s t i e
  | .changeIndexColumnSortDir s t i e d => keepsKeys_changeIndexColumnSortDir s t i e d
  | .createConstraint s t d => keepsKeys_createConstraint s t d
  | .deleteConstraint s t k => (keepsKeys_deleteConstraint s t k).keepsFrom
  | .changeConstraintName s t k n => (keepsKeys_changeConstraintName s t k n).keepsFrom
  | .addColumnToConstraint s t k d => keepsKeys_addColumnToConstraint s t k d
  | .removeColumnFromConstraint s t k e => keepsKeys_removeColumnFromConstraint s t k e
  | .createRelationship s d => keepsKeys_createRelationship s d
  | .deleteRelationship s r => (keepsKeys_deleteRelationship s r).keepsFrom
  | .changeRelationshipName s r n => (keepsKeys_changeRelationshipName s r n).keepsFrom
  | .changeRelationshipCardinality s r c => (keepsKeys_changeRelationshipCardinality s r c).keepsFrom
  | .changeRelationshipKind s r k => keepsKeys_changeRelationshipKind s r k
  | .changeRelationshipActions s r d u => (keepsKeys_changeRelationshipActions s r d u).keepsFrom
  | .addColumnToRelationship s r m => keepsKeys_addColumnToRelationship s r m
  | .removeColumnFromRelationship s r m => (keepsKeys_removeColumnFromRelationship s r m).keepsFrom

end Operation

/-- **Every accepted operation keeps sound keys** (`Table.KeysSound`): one primary key at most,
well-formed indexes, constraints and mappings, no repeated definition, and no UNIQUE constraint
restating the key. -/
theorem Editor.apply_keeps_keys_sound {config : EditorConfig} {supply : IdSupply}
    {db db' : Database} {op : Operation} (hv : db.validate = .ok ()) (hk : db.KeysSound)
    (happ : (Editor.apply config supply db op).result = .ok db') : db'.KeysSound := by
  unfold Editor.apply at happ
  split at happ
  next st hrun =>
    cases happ
    exact op.keepsKeys_run _ _ _ (Database.keyBase_of_validate hv hk) hrun hk
  next => cases happ

set_option maxRecDepth 100000 in
theorem Editor.lineKey_keeps_keys_sound :
    ordersAndLines.validate = .ok () ∧ ordersAndLines.KeysSound ∧
      ∃ db', (Editor.apply {} { seed := 0 } ordersAndLines lineKey).result = .ok db' ∧
        db'.KeysSound := by
  have hv : ordersAndLines.validate = .ok () := by rfl
  have hk : ordersAndLines.KeysSound := by decide
  obtain ⟨db', happ⟩ : ∃ db', (Editor.apply {} { seed := 0 } ordersAndLines lineKey).result =
      .ok db' := ⟨_, rfl⟩
  exact ⟨hv, hk, db', happ, Editor.apply_keeps_keys_sound hv hk happ⟩

/-- Every holder column of a SET NULL relationship is nullable in its table. -/
def Database.SetNullKeysNullable (db : Database) : Prop :=
  ∀ s ∈ db.schemas, ∀ t ∈ s.tables, ∀ r ∈ t.relationships, r.usesSetNull = true →
    ∀ m ∈ r.columns, t.isNullable m.fkColumnId = true

instance (db : Database) : Decidable db.SetNullKeysNullable := by
  unfold Database.SetNullKeysNullable
  infer_instance

/-- Tables `p`, keyed by `p1`, `q`, keyed by `q1`, and `h`, keyed by `h1`, whose column `x` is
mapped onto `p1` by the non-identifying `r1` and onto `q1` by `r2`, which sets it to null when
`q1` goes. -/
def setNullHolder : Database :=
  ⟨⟨"db"⟩, [⟨⟨"s"⟩, ⟨"db"⟩, "s", .mysql, none, none, [
    ⟨⟨"p"⟩, ⟨"s"⟩, "p", none,
      [⟨⟨"p1"⟩, ⟨"p"⟩, "p1", 1, some "INT", none, false, none, none, none⟩], [],
      [⟨⟨"kp"⟩, ⟨"p"⟩, "pk_p", .primaryKey, none, none, [⟨⟨"kp1"⟩, ⟨"p1"⟩, 1⟩]⟩], []⟩,
    ⟨⟨"q"⟩, ⟨"s"⟩, "q", none,
      [⟨⟨"q1"⟩, ⟨"q"⟩, "q1", 1, some "INT", none, false, none, none, none⟩], [],
      [⟨⟨"kq"⟩, ⟨"q"⟩, "pk_q", .primaryKey, none, none, [⟨⟨"kq1"⟩, ⟨"q1"⟩, 1⟩]⟩], []⟩,
    ⟨⟨"h"⟩, ⟨"s"⟩, "h", none,
      [⟨⟨"h1"⟩, ⟨"h"⟩, "h1", 1, some "INT", none, false, none, none, none⟩,
       ⟨⟨"x"⟩, ⟨"h"⟩, "x", 2, some "INT", none, false, none, none, none⟩], [],
      [⟨⟨"kh"⟩, ⟨"h"⟩, "pk_h", .primaryKey, none, none, [⟨⟨"kh1"⟩, ⟨"h1"⟩, 1⟩]⟩],
      [⟨⟨"r1"⟩, ⟨"h"⟩, ⟨"p"⟩, "r1", .nonIdentifying, .oneToMany, .noAction, .noAction,
        [⟨⟨"m1"⟩, ⟨"x"⟩, ⟨"p1"⟩, 1⟩]⟩,
       ⟨⟨"r2"⟩, ⟨"h"⟩, ⟨"q"⟩, "r2", .nonIdentifying, .oneToMany, .setNull, .noAction,
        [⟨⟨"m2"⟩, ⟨"x"⟩, ⟨"q1"⟩, 1⟩]⟩]⟩]⟩]⟩

set_option maxRecDepth 100000 in
/-- Making `r1` identifying puts `x` into the key of `h` and is accepted, though `r2` sets `x`
to null. -/
theorem Editor.identifying_key_breaks_setNull :
    setNullHolder.validate = .ok () ∧ setNullHolder.SetNullKeysNullable ∧
      ∃ db', (Editor.apply {} { seed := 0 } setNullHolder
          (.changeRelationshipKind ⟨"s"⟩ ⟨"r1"⟩ .identifying)).result = .ok db' ∧
        ¬db'.SetNullKeysNullable :=
  ⟨by rfl, by decide, _, rfl, by decide⟩

end SchemaDesign
