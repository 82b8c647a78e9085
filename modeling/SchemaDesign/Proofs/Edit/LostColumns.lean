import SchemaDesign.Proofs.Edit.RemovalFrame
import SchemaDesign.Proofs.Edit.Resequencing
import SchemaDesign.Proofs.Edit.NameScopes

/-!
# Which columns an operation may take from a table

Deleting a column refuses to take a table's last one (`TABLE_EMPTY_COLUMN`). The other removals
take columns from tables only through the key-removal cascade and the release of holder
columns, and those detach foreign-key columns alone. So a table loses a column only when the
column is the one deleted, or when one of the table's relationships mapped it
(`Editor.apply_loses_only_mapped_columns`). No check guards the cascades: a table whose columns
are all holder columns can be emptied, for instance by deleting the relationship that maps its
only column (`Editor.deleteRelationship_empties_table`).

`Table.Sheds t t'` says that `t'` lost only columns `t` mapped, and maps nothing `t` did not map.
Between snapshots whose schemas are distinct, `Database.Sheds` relates every table this way. The
cascade keeps it: started on any distinct snapshot, the invariant of the removal cascade
justifies every table against that snapshot. Changes of keys and relationship kinds keep every
column and every mapping, so the removals made of them and of the cascade keep it too. Deleting a
relationship or a table and removing a mapping are read off their removal frames, and the
operations that remove nothing keep every column (`Operation.Resequences`).
-/

namespace SchemaDesign

/-- Some relationship of the table maps column `c` as its holder column. -/
def Table.MapsFk (t : Table) (c : Id) : Prop :=
  ∃ r ∈ t.relationships, r.mapsFkColumn c = true

/-- `t'` is `t` having lost only columns that `t` mapped as holder columns, and mapping no
column that `t` did not map. -/
structure Table.Sheds (t t' : Table) : Prop where
  id : t'.id = t.id
  mapped : ∀ c, t'.MapsFk c → t.MapsFk c
  lost : ∀ c ∈ t.columns.map (·.id), c ∉ t'.columns.map (·.id) → t.MapsFk c

namespace Table

theorem Sheds.refl (t : Table) : t.Sheds t where
  id := rfl
  mapped _ h := h
  lost _ hc hc' := absurd hc hc'

/-- A column lost at the second step was mapped then, so it was mapped at the start. -/
theorem Sheds.trans {t₁ t₂ t₃ : Table} (h₁ : t₁.Sheds t₂) (h₂ : t₂.Sheds t₃) : t₁.Sheds t₃ where
  id := h₂.id.trans h₁.id
  mapped c h := h₁.mapped c (h₂.mapped c h)
  lost c hc hc' := by
    by_cases hc₂ : c ∈ t₂.columns.map (·.id)
    · exact h₁.mapped c (h₂.lost c hc₂ hc')
    · exact h₁.lost c hc hc₂

instance : IsPreorder Table Sheds where
  refl := Sheds.refl
  trans _ _ _ := Sheds.trans

/-- A change that keeps every column and maps no new one sheds nothing. -/
theorem Sheds.of_keeps {t t' : Table} (hid : t'.id = t.id)
    (hcols : ∀ c ∈ t.columns.map (·.id), c ∈ t'.columns.map (·.id))
    (hmaps : ∀ c, t'.MapsFk c → t.MapsFk c) : t.Sheds t' where
  id := hid
  mapped := hmaps
  lost c hc hc' := absurd (hcols c hc) hc'

theorem Sheds.of_parts {t t' : Table} (hid : t'.id = t.id) (hcols : t'.columns = t.columns)
    (hrels : t'.relationships = t.relationships) : t.Sheds t' :=
  Sheds.of_keeps hid (by rw [hcols]; exact fun _ h => h) fun c hc => by
    unfold MapsFk at hc ⊢
    rw [← hrels]
    exact hc

theorem Justified.mapsFk_of_lost {t t' : Table} (hj : t.Justified t') {c : Id}
    (hc : c ∈ t.columns.map (·.id)) (hc' : c ∉ t'.columns.map (·.id)) : t.MapsFk c := by
  obtain ⟨⟨r, hr, m, hm, hfk, -⟩, -⟩ := hj.columnLost c hc hc'
  refine ⟨r, hr, ?_⟩
  unfold Relationship.mapsFkColumn
  exact List.any_eq_true.2 ⟨m, hm, by simp [hfk]⟩

theorem Sheds.of_justified {t t' : Table} (hs : t.Shrinks t') (hj : t.Justified t') :
    t.Sheds t' where
  id := hs.id_eq
  mapped c hc := by
    obtain ⟨r', hr', hmaps⟩ := hc
    exact hs.mapsFkColumn hr' hmaps
  lost _ hc hc' := hj.mapsFk_of_lost hc hc'

theorem Distinct.of_parts {t t' : Table} (h : t.Distinct) (hid : t'.id = t.id)
    (hcols : t'.columns = t.columns) (hrels : t'.relationships = t.relationships) :
    t'.Distinct where
  columns := hcols ▸ h.columns
  relationships := hrels ▸ h.relationships
  holder r hr := by
    rw [hid]
    exact h.holder r (hrels ▸ hr)

/-- Changing a relationship in place, keeping its mappings, maps no new column. -/
theorem mapsFk_changeRelationship {t : Table} {rid : Id} {f : Relationship → Relationship}
    (hf : ∀ r, (f r).columns = r.columns) {c : Id} (h : (t.changeRelationship rid f).MapsFk c) :
    t.MapsFk c := by
  obtain ⟨r', hr', hmaps⟩ := h
  rcases mem_updateFirst hr' with hr' | ⟨r, hr, rfl⟩
  · exact ⟨r', hr', hmaps⟩
  · refine ⟨r, List.mem_of_find?_eq_some hr, ?_⟩
    unfold Relationship.mapsFkColumn at hmaps ⊢
    rw [← hf r]
    exact hmaps

end Table

/-! ## Snapshots that shed only mapped columns -/

/-- Distinct schema ids and distinct schemas: what the cascade needs of the snapshot it starts
on. -/
structure Database.Distinct (db : Database) : Prop where
  schemaIds : (db.schemas.map (·.id)).Nodup
  schemas : ∀ s ∈ db.schemas, s.Distinct

namespace Database.Distinct

variable {db db' : Database}

theorem of_validate (hv : db.validate = .ok ()) : db.Distinct where
  schemaIds := schemaIds_nodup (labelledIds_nodup_of_validate hv)
  schemas _ hs := distinct_of_validate hv hs

theorem schema? (h : db.Distinct) {sid : Id} {s : Schema} (hs : db.schema? sid = some s) :
    s.Distinct :=
  h.schemas s (List.mem_of_find?_eq_some hs)

/-- Taking parts away keeps a snapshot distinct. -/
theorem of_shrinks (h : db.Distinct) (hs : db.Tablewise Table.Shrinks db') : db'.Distinct where
  schemaIds := by
    rw [forall₂_map_eq hs.2 fun _ _ h => h.1]
    exact h.schemaIds
  schemas s' hs' := by
    obtain ⟨s, hsm, -, htables⟩ := forall₂_exists_of_mem_right hs.2 hs'
    refine ⟨?_, fun t' ht' => ?_⟩
    · rw [forall₂_map_eq htables fun _ _ h => h.id_eq]
      exact (h.schemas s hsm).tables
    · obtain ⟨t, ht, hsh⟩ := forall₂_exists_of_mem_right htables ht'
      exact ((h.schemas s hsm).table t ht).of_shrinks hsh

/-- Changing the table a lookup finds, keeping its id and its ids distinct, keeps a snapshot
distinct. -/
theorem updateTable (h : db.Distinct) {sid tid : Id} {s : Schema} {t : Table}
    (hs : db.schema? sid = some s) (ht : s.table? tid = some t) {f : Table → Table}
    (hid : (f t).id = t.id) (hd : t.Distinct → (f t).Distinct) :
    (db.updateTable sid tid f).Distinct where
  schemaIds := by
    rw [Database.schemaIds_updateTable]
    exact h.schemaIds
  schemas s' hs' := by
    rcases mem_updateFirst hs' with hs' | ⟨x, hx, rfl⟩
    · exact h.schemas s' hs'
    · obtain rfl : x = s := Option.some.inj (hx.symm.trans hs)
      refine (h.schema? hs).replace fun t' ht' => ?_
      obtain rfl : t' = t := Option.some.inj (ht'.symm.trans ht)
      exact ⟨hid, hd ((h.schema? hs).table t' (Schema.mem_of_table? ht).1)⟩

end Database.Distinct

/-- From a distinct snapshot, `db'` is distinct, and each of its tables is its counterpart in
`db` having shed only mapped columns. -/
def Database.Sheds (db db' : Database) : Prop :=
  db.Distinct → db'.Distinct ∧ db.Tablewise Table.Sheds db'

namespace Database

theorem Sheds.refl (db : Database) : db.Sheds db :=
  fun h => ⟨h, Tablewise.refl db⟩

theorem Sheds.trans {db₁ db₂ db₃ : Database} (h₁ : db₁.Sheds db₂) (h₂ : db₂.Sheds db₃) :
    db₁.Sheds db₃ := by
  intro hd
  obtain ⟨hd₂, ht₁⟩ := h₁ hd
  obtain ⟨hd₃, ht₂⟩ := h₂ hd₂
  exact ⟨hd₃, ht₁.trans ht₂⟩

instance : IsPreorder Database Sheds where
  refl := Sheds.refl
  trans _ _ _ := Sheds.trans

/-- Every table found in both snapshots lost only columns it mapped as holder columns, or those
`drop` names: `drop sid tid c` for column `c` of table `tid` of schema `sid`. -/
def LosesOnlyMapped (drop : Id → Id → Id → Prop) (db db' : Database) : Prop :=
  ∀ sid tid t t', db.FindsTable sid tid t → db'.FindsTable sid tid t' →
    ∀ c ∈ t.columns.map (·.id), c ∉ t'.columns.map (·.id) → drop sid tid c ∨ t.MapsFk c

theorem LosesOnlyMapped.mono {drop drop' : Id → Id → Id → Prop}
    (hdrop : ∀ sid tid c, drop sid tid c → drop' sid tid c) {db db' : Database}
    (h : db.LosesOnlyMapped drop db') : db.LosesOnlyMapped drop' db' :=
  fun sid tid t t' ht ht' c hc hc' => (h sid tid t t' ht ht' c hc hc').imp_left (hdrop sid tid c)

theorem Sheds.losesOnlyMapped {db db' : Database} (h : db.Sheds db') (hd : db.Distinct)
    (drop : Id → Id → Id → Prop) : db.LosesOnlyMapped drop db' := by
  intro sid tid t t' ht ht' c hc hc'
  obtain ⟨t₁, ht₁, hsh⟩ := Tablewise.findsTable_left (fun _ _ h => h.id) (h hd).2 ht
  obtain rfl := ht₁.unique ht'
  exact .inr (hsh.lost c hc hc')

end Database

/-! ## Steps that shed only mapped columns -/

namespace EditM

variable {sid : Id}

theorem sheds_modifyTable {tid : Id} {f : Table → Table}
    (hf : ∀ t, t.id = tid → t.Sheds (f t) ∧ (t.Distinct → (f t).Distinct)) :
    Keeps Database.Sheds (modifyTable sid tid f) := by
  intro st u st' hrun hd
  obtain ⟨hdb, s, t, hs, ht⟩ := modifyTable_run hrun
  obtain ⟨hsh, hdt⟩ := hf t (Schema.mem_of_table? ht).2
  rw [hdb]
  exact ⟨hd.updateTable hs ht hsh.id hdt, tablewise_updateTable hs ht hsh⟩

theorem sheds_modifyTable_of_parts {tid : Id} {f : Table → Table}
    (hf : ∀ t, (f t).id = t.id ∧ (f t).columns = t.columns ∧ (f t).relationships = t.relationships) :
    Keeps Database.Sheds (modifyTable sid tid f) := by
  refine sheds_modifyTable fun t _ => ?_
  obtain ⟨hid, hcols, hrels⟩ := hf t
  exact ⟨Table.Sheds.of_parts hid hcols hrels, fun hd => hd.of_parts hid hcols hrels⟩

theorem sheds_putTable {tid : Id} {t t' : Table} (h : t.Sheds t')
    (hd : t.Distinct → t'.Distinct) :
    KeepsFrom (Database.FindsTable sid tid t) Database.Sheds (putTable sid tid t') := by
  rintro st u st' ⟨s, hs, ht⟩ hr hdist
  obtain ⟨hdb, -⟩ := modifyTable_run hr
  rw [hdb]
  exact ⟨hdist.updateTable hs ht h.id hd, tablewise_updateTable hs ht h⟩

/-- Changing a relationship in place, keeping its id, holder and mappings. -/
theorem sheds_modifyRelationship (rid : Id) {f : Relationship → Relationship}
    (hf : ∀ r, (f r).id = r.id ∧ (f r).fkTableId = r.fkTableId ∧ (f r).columns = r.columns) :
    Keeps Database.Sheds (modifyRelationship sid rid f) := by
  unfold modifyRelationship
  refine Keeps.bind (keeps_relationship _ _) fun found =>
    Keeps.bind_reads (reads_table _ _) fun t => ?_
  have hput : KeepsFrom (Database.FindsTable sid found.1.id t) Database.Sheds
      (putTable sid found.1.id (t.changeRelationship rid f)) :=
    sheds_putTable (Table.Sheds.of_keeps rfl (fun _ h => h)
      fun _ => Table.mapsFk_changeRelationship fun r => (hf r).2.2)
      fun hd => hd.changeRelationship (fun r => (hf r).1) fun r => (hf r).2.1
  dsimp only
  split
  · exact KeepsFrom.bind_eq (Keeps.throw _) fun _ => hput
  · exact hput

theorem sheds_removeFromPrimaryKey (tid : Id) (cs : List Id) :
    Keeps Database.Sheds (removeFromPrimaryKey sid tid cs) :=
  sheds_modifyTable_of_parts fun _ => ⟨Table.pruneRedundantKeys_id _,
    Table.pruneRedundantKeys_columns _, Table.pruneRedundantKeys_relationships _⟩

/-- The cascade, started on a distinct snapshot, sheds only mapped columns: the cascade's
invariant, started there with no target, justifies every table against that snapshot. -/
theorem sheds_cascadeKeyRemoval (sid : Id) (seeds : List (Id × Id)) (survive : Bool) :
    Keeps Database.Sheds (cascadeKeyRemoval sid seeds survive) := by
  intro st n st' hrun hd
  have hrun' := hrun
  unfold cascadeKeyRemoval at hrun'
  obtain ⟨s, _, h₁, -⟩ := run_bind_ok hrun'
  obtain ⟨-, hs⟩ := schema_run h₁
  have h₀ : st.db.Removing sid none (fun _ _ => False) [] st.db :=
    Database.Removing.refl st.db hd.schemaIds
  obtain ⟨gone, hg⟩ := cascadeKeyRemoval_removing hs (hd.schema? hs) cutStable_none h₀ hrun
  refine ⟨hd.of_shrinks (shrinks_cascadeKeyRemoval sid seeds survive st n st' hrun), ?_⟩
  exact hg.trimmed.tables.mono fun _ _ h =>
    Table.Sheds.of_justified h.1.toShrinks (h.2 (Option.some_ne_none _))

/-! ## The removals that change keys before they cascade -/

theorem sheds_deleteConstraint (tid kid : Id) :
    Keeps Database.Sheds (deleteConstraint sid tid kid) :=
  keeps_deleteConstraint_of (sheds_modifyTable_of_parts fun _ => ⟨rfl, rfl, rfl⟩) (sheds_cascadeKeyRemoval sid)

theorem sheds_removeColumnFromConstraint (tid kid eid : Id) :
    Keeps Database.Sheds (removeColumnFromConstraint sid tid kid eid) :=
  keeps_removeColumnFromConstraint_of (sheds_modifyTable_of_parts fun _ => ⟨rfl, rfl, rfl⟩)
    (fun _ => Keeps.keepsFrom (sheds_modifyTable_of_parts fun _ => ⟨rfl, rfl, rfl⟩)) (sheds_cascadeKeyRemoval sid)

theorem sheds_makeNonIdentifying (rid : Id) :
    Keeps Database.Sheds (changeRelationshipKind sid rid .nonIdentifying) :=
  keeps_makeNonIdentifying_of (sheds_modifyRelationship _ fun _ => ⟨rfl, rfl, rfl⟩)
    (fun _ _ => sheds_removeFromPrimaryKey _ _) (sheds_cascadeKeyRemoval sid)

/-! ## The removals that keep every column -/

theorem sheds_deleteIndex (tid iid : Id) : Keeps Database.Sheds (deleteIndex sid tid iid) :=
  Keeps.bind (keeps_index _ _ _) fun _ => sheds_modifyTable_of_parts fun _ => ⟨rfl, rfl, rfl⟩

theorem sheds_removeColumnFromIndex (tid iid eid : Id) :
    Keeps Database.Sheds (removeColumnFromIndex sid tid iid eid) :=
  keeps_removeColumnFromIndex_of (sheds_modifyTable_of_parts fun _ => ⟨rfl, rfl, rfl⟩) fun _ => Keeps.keepsFrom (sheds_modifyTable_of_parts fun _ => ⟨rfl, rfl, rfl⟩)

theorem sheds_makeNullable (tid cid : Id) :
    Keeps Database.Sheds (changeColumnNullable sid tid cid true) :=
  keeps_changeColumnNullable_of (fun _ => sheds_modifyTable_of_parts fun _ => ⟨rfl, rfl, rfl⟩) fun h => absurd h (by decide)

/-! ## Removals read off their runs and frames -/

/-- Deleting column `cid` of table `tid` takes from any table only columns it mapped, and from
table `tid` the column itself: the cascade sheds only mapped columns, and the detach at the end
takes `cid` alone. -/
theorem deleteColumn_losesOnlyMapped {tid cid : Id} {st st' : Session} {u : Unit}
    (hd : st.db.Distinct) (hrun : (deleteColumn sid tid cid).run st = .ok u st') :
    st.db.LosesOnlyMapped (fun sid' tid' c => sid' = sid ∧ tid' = tid ∧ c = cid) st'.db := by
  unfold deleteColumn at hrun
  obtain ⟨c, st₁, h₁, h₂⟩ := run_bind_ok hrun
  have hst₁ : st.db = st₁.db := keeps_column sid tid cid st c st₁ h₁
  obtain ⟨t, st₂, h₃, h₄⟩ := run_bind_ok h₂
  obtain ⟨rfl, -⟩ := table_run h₃
  split at h₄
  · obtain ⟨_, _, hthrow, -⟩ := run_bind_ok h₄
    cases hthrow
  obtain ⟨u₁, st₃, h₅, h₆⟩ := run_bind_ok h₄
  have hst₃ : st₂.db = st₃.db := (keeps_ensureKeyColumnRemovable sid tid cid : Keeps Eq _) _ _ _ h₅
  obtain ⟨n, st₄, h₇, h₈⟩ := run_bind_ok h₆
  have hsheds := (sheds_cascadeKeyRemoval sid _ false _ n st₄ h₇ (hst₃ ▸ hst₁ ▸ hd)).2
  rw [← hst₃, ← hst₁] at hsheds
  intro sid' tid' t₀ t' ht₀ ht' c' hc hc'
  obtain ⟨t₄, ht₄, hsh⟩ := Database.Tablewise.findsTable_left (fun _ _ h => h.id) hsheds ht₀
  by_cases hmem : c' ∈ t₄.columns.map (·.id)
  · -- the cascade left the column, so the detach took it
    have hid : ∀ t : Table, t.id = tid → (t.detachColumn cid).1.id = tid :=
      fun t h => (Table.detachColumn_id t cid).trans h
    rw [(modifyTable_run h₈).1] at ht'
    by_cases hkey : sid' = sid ∧ tid' = tid
    · obtain ⟨rfl, rfl⟩ := hkey
      obtain ⟨t₅, ht₅, rfl⟩ := (Database.findsTable_updateTable hid).1 ht'
      obtain rfl := ht₅.unique ht₄
      exact .inl ⟨rfl, rfl, Table.eq_of_not_mem_detachColumn hmem hc'⟩
    · obtain rfl := ((Database.findsTable_updateTable_elsewhere hid hkey).1 ht').unique ht₄
      exact absurd hmem hc'
  · exact .inr (hsh.lost c' hc hmem)

end EditM

/-- A removal frame whose target, if it has one, is gone afterwards loses only mapped columns:
the other schemas are as they were, and the other tables of the schema are justified. -/
theorem Database.RemovalFrame.losesOnlyMapped {db db' : Database} {sid : Id}
    {target edited : Option Id} (h : db.RemovalFrame sid target edited db')
    (hgone : ∀ tid t', target = some tid → ¬db'.FindsTable sid tid t')
    (drop : Id → Id → Id → Prop) : db.LosesOnlyMapped drop db' := by
  intro sid' tid t t' ht ht' c hc hc'
  refine .inr ?_
  have htid : t.id = tid := ht.id_eq
  by_cases hsid : sid' = sid
  · subst hsid
    by_cases htarget : some t.id = target
    · exact absurd ht' (hgone tid t' (htarget.symm.trans (congrArg some htid)))
    · obtain ⟨t₁, ht₁, hj⟩ := h.tables t (htid ▸ ht) htarget
      obtain rfl := ht₁.unique (htid ▸ ht')
      exact hj.mapsFk_of_lost hc hc'
  · -- the schema is one the removal left as it was
    obtain ⟨s, hs, hts⟩ := ht
    obtain ⟨s', hs', hts'⟩ := ht'
    have hsid' : s.id = sid' := by simpa using List.find?_some hs
    have hkept := h.others s (List.mem_of_find?_eq_some hs) (hsid' ▸ hsid)
    rw [hsid', hs'] at hkept
    obtain rfl := Option.some.inj hkept
    obtain rfl := Option.some.inj (hts'.symm.trans hts)
    exact absurd hc hc'

/-- An operation that removes nothing keeps every column of every table. -/
theorem Operation.mem_columns_of_resequences {op : Operation} (hop : op.removes = false)
    {sid tid : Id} {t t' : Table} (h : op.Resequences sid tid t t') {c : Id}
    (hc : c ∈ t.columns.map (·.id)) : c ∈ t'.columns.map (·.id) := by
  unfold Operation.Resequences at h
  split at h
  · -- a created column is put among the others
    split at h
    · obtain ⟨-, -, col, -, hext⟩ := h
      refine hext.columns.subset ?_
      rw [Table.columnIds_insertColumn]
      exact (insertAt_perm _ _ _).mem_iff.2 (List.mem_cons_of_mem _ hc)
    · exact h.columns.subset hc
  · -- a moved column is put back among the others
    split at h
    · obtain ⟨-, -, col, hcol, -, rfl⟩ := h
      rw [Table.columnIds_moveColumn]
      refine (insertAt_perm _ _ _).mem_iff.2 ?_
      by_cases hcc : c = col.id
      · exact hcc ▸ List.mem_cons_self
      · refine List.mem_cons_of_mem _ ?_
        obtain ⟨x, hx, rfl⟩ := List.mem_map.1 hc
        rcases mem_eraseP_of_mem hx with hx' | hx'
        · exact List.mem_map_of_mem hx'
        · exact absurd (by simpa using List.find?_some hx') hcc
    · rw [h]
      exact hc
  · rw [hop, if_neg Bool.false_ne_true] at h
    exact h.columns.subset hc

namespace EditM

variable {sid : Id} {db : Database} {st st' : Session} {u : Unit}

/-- Deleting a table leaves no table with its id in its schema. -/
theorem not_findsTable_deleteTable {tid : Id} (hrun : (deleteTable sid tid).run st = .ok u st')
    (t' : Table) : ¬st'.db.FindsTable sid tid t' := by
  unfold deleteTable at hrun
  obtain ⟨t, st₁, -, h₂⟩ := run_bind_ok hrun
  obtain ⟨s, st₂, -, h₄⟩ := run_bind_ok h₂
  obtain ⟨u₁, st₃, -, h₆⟩ := run_bind_ok h₄
  have hdb : st'.db = st₃.db.dropTable sid tid := (modifySchema_run h₆).1
  rw [hdb]
  intro ht'
  exact (Database.findsTable_dropTable.1 ht').1 rfl

theorem losesOnlyMapped_deleteTable (hv : db.validate = .ok ()) {tid : Id} (hst : st.db = db)
    (hrun : (deleteTable sid tid).run st = .ok u st') (drop : Id → Id → Id → Prop) :
    db.LosesOnlyMapped drop st'.db := by
  have hrun' := hrun
  unfold deleteTable at hrun'
  obtain ⟨_, _, h₁, -⟩ := run_bind_ok hrun'
  obtain ⟨-, s, hs, -⟩ := table_run h₁
  refine (deleteTable_frame (Database.removalBase_of_validate hv (hst ▸ hs)) hst
    hrun).losesOnlyMapped (fun tid' t' htarget => ?_) drop
  obtain rfl := Option.some.inj htarget
  exact not_findsTable_deleteTable hrun t'

theorem losesOnlyMapped_deleteRelationship (hv : db.validate = .ok ()) {rid : Id}
    (hst : st.db = db) (hrun : (deleteRelationship sid rid).run st = .ok u st')
    (drop : Id → Id → Id → Prop) : db.LosesOnlyMapped drop st'.db := by
  have hrun' := hrun
  unfold deleteRelationship at hrun'
  obtain ⟨_, _, h₁, -⟩ := run_bind_ok hrun'
  obtain ⟨-, s, hs, -⟩ := reads_relationship _ _ _ _ _ h₁
  exact (deleteRelationship_frame (Database.removalBase_of_validate hv (hst ▸ hs)) hst
    hrun).losesOnlyMapped (fun _ _ h => by cases h) drop

theorem losesOnlyMapped_removeColumnFromRelationship (hv : db.validate = .ok ()) {rid mid : Id}
    (hst : st.db = db) (hrun : (removeColumnFromRelationship sid rid mid).run st = .ok u st')
    (drop : Id → Id → Id → Prop) : db.LosesOnlyMapped drop st'.db := by
  have hrun' := hrun
  unfold removeColumnFromRelationship at hrun'
  obtain ⟨_, _, h₁, -⟩ := run_bind_ok hrun'
  obtain ⟨-, s, hs, -⟩ := reads_relationship _ _ _ _ _ h₁
  exact (removeColumnFromRelationship_frame (Database.removalBase_of_validate hv (hst ▸ hs)) hst
    hrun).losesOnlyMapped (fun _ _ h => by cases h) drop

theorem losesOnlyMapped_deleteSchema (hrun : (deleteSchema sid).run st = .ok u st')
    (drop : Id → Id → Id → Prop) : st.db.LosesOnlyMapped drop st'.db := by
  intro sid' tid t t' ht ht' c hc hc'
  obtain rfl := (sequenced_dropSchema sid st u st' hrun).2 sid' tid t t' ht ht'
  exact absurd hc hc'

/-- Every successful operation on an accepted snapshot loses from each table only columns the
table mapped, or the column it deletes. -/
theorem losesOnlyMapped_run (hv : db.validate = .ok ()) {op : Operation} (hst : st.db = db)
    (hrun : op.run.run st = .ok u st') :
    db.LosesOnlyMapped (fun sid tid c => op = .deleteColumn sid tid c) st'.db := by
  have hd : st.db.Distinct := hst ▸ Database.Distinct.of_validate hv
  cases hrem : op.removes
  · -- nothing is removed: every column stays
    intro sid tid t t' ht ht' c hc hc'
    exact absurd (Operation.mem_columns_of_resequences hrem
      ((op.sequenced_run st u st' hrun).2 sid tid t t' (hst ▸ ht) ht') hc) hc'
  -- a removal: by what it removes
  cases op <;> (try simp only [Operation.removes, Bool.false_eq_true] at hrem)
  case deleteSchema s =>
    exact hst ▸ losesOnlyMapped_deleteSchema hrun _
  case deleteTable s t =>
    exact losesOnlyMapped_deleteTable hv hst hrun _
  case deleteColumn s t c =>
    refine hst ▸ (deleteColumn_losesOnlyMapped hd hrun).mono fun sid tid c' h => ?_
    obtain ⟨rfl, rfl, rfl⟩ := h
    rfl
  case deleteIndex s t i =>
    exact hst ▸ (sheds_deleteIndex t i st u st' hrun).losesOnlyMapped hd _
  case removeColumnFromIndex s t i e =>
    exact hst ▸ (sheds_removeColumnFromIndex t i e st u st' hrun).losesOnlyMapped hd _
  case deleteConstraint s t k =>
    exact hst ▸ (sheds_deleteConstraint t k st u st' hrun).losesOnlyMapped hd _
  case removeColumnFromConstraint s t k e =>
    exact hst ▸ (sheds_removeColumnFromConstraint t k e st u st' hrun).losesOnlyMapped hd _
  case deleteRelationship s r =>
    exact losesOnlyMapped_deleteRelationship hv hst hrun _
  case removeColumnFromRelationship s r m =>
    exact losesOnlyMapped_removeColumnFromRelationship hv hst hrun _
  case changeColumnNullable s t c b =>
    cases b
    · cases hrem
    · exact hst ▸ (sheds_makeNullable t c st u st' hrun).losesOnlyMapped hd _
  case changeRelationshipKind s r k =>
    cases k
    · cases hrem
    · exact hst ▸ (sheds_makeNonIdentifying r st u st' hrun).losesOnlyMapped hd _

end EditM

/-! ## Operations through the editor -/

/-- Every successful operation on an accepted snapshot takes from a table only columns that one
of the table's relationships mapped as holder columns, or the column it deletes. A table keeps
every column that no relationship of it maps, unless that column is deleted. -/
theorem Editor.apply_loses_only_mapped_columns {config : EditorConfig} {supply : IdSupply}
    {db db' : Database} {op : Operation} (hv : db.validate = .ok ())
    (happ : (Editor.apply config supply db op).result = .ok db') {sid tid : Id} {t t' : Table}
    (ht : db.FindsTable sid tid t) (ht' : db'.FindsTable sid tid t') {c : Id}
    (hc : c ∈ t.columns.map (·.id)) (hlost : c ∉ t'.columns.map (·.id)) :
    op = .deleteColumn sid tid c ∨ ∃ r ∈ t.relationships, r.mapsFkColumn c = true := by
  unfold Editor.apply at happ
  split at happ
  next st hrun =>
    cases happ
    exact EditM.losesOnlyMapped_run hv rfl hrun sid tid t t' ht ht' c hc hlost
  next => cases happ

/-- Tables `p`, keyed by `p1`, and `h`, whose only column `f` the non-identifying relationship
`r` maps onto `p1`. -/
def fkOnlyHolder : Database :=
  ⟨⟨"db"⟩, [⟨⟨"s"⟩, ⟨"db"⟩, "s", .mysql, none, none, [
    ⟨⟨"p"⟩, ⟨"s"⟩, "p", none,
      [⟨⟨"p1"⟩, ⟨"p"⟩, "p1", 1, some "INT", none, false, none, none, none⟩], [],
      [⟨⟨"kp"⟩, ⟨"p"⟩, "pk_p", .primaryKey, none, none, [⟨⟨"kp1"⟩, ⟨"p1"⟩, 1⟩]⟩], []⟩,
    ⟨⟨"h"⟩, ⟨"s"⟩, "h", none,
      [⟨⟨"f"⟩, ⟨"h"⟩, "f", 1, some "INT", none, false, none, none, none⟩], [], [],
      [⟨⟨"r"⟩, ⟨"h"⟩, ⟨"p"⟩, "r", .nonIdentifying, .oneToMany, .noAction, .noAction,
        [⟨⟨"m"⟩, ⟨"f"⟩, ⟨"p1"⟩, 1⟩]⟩]⟩]⟩]⟩

set_option maxRecDepth 100000 in
theorem Editor.fkOnlyHolder_loses_mapped_column :
    fkOnlyHolder.validate = .ok () ∧
      ∃ db' t t', (Editor.apply {} { seed := 0 } fkOnlyHolder
          (.deleteRelationship ⟨"s"⟩ ⟨"r"⟩)).result = .ok db' ∧
        fkOnlyHolder.FindsTable ⟨"s"⟩ ⟨"h"⟩ t ∧ db'.FindsTable ⟨"s"⟩ ⟨"h"⟩ t' ∧
        ⟨"f"⟩ ∈ t.columns.map (·.id) ∧ ⟨"f"⟩ ∉ t'.columns.map (·.id) ∧
        (Operation.deleteRelationship ⟨"s"⟩ ⟨"r"⟩ = .deleteColumn ⟨"s"⟩ ⟨"h"⟩ ⟨"f"⟩ ∨
          ∃ r ∈ t.relationships, r.mapsFkColumn ⟨"f"⟩ = true) := by
  have hv : fkOnlyHolder.validate = .ok () := by rfl
  refine ⟨hv, _, _, _, rfl, ⟨_, rfl, rfl⟩, ⟨_, rfl, rfl⟩, by decide, by decide, ?_⟩
  exact @Editor.apply_loses_only_mapped_columns {} { seed := 0 } _ _ _ hv rfl _ _ _ _
    ⟨_, rfl, rfl⟩ ⟨_, rfl, rfl⟩ _ (by decide) (by decide)

set_option maxRecDepth 100000 in
/-- Deleting the relationship that maps the only column of its holder leaves the holder with no
column, though only deleting a column checks that a table keeps one. -/
theorem Editor.deleteRelationship_empties_table :
    fkOnlyHolder.validate = .ok () ∧
      ∃ db' t t', (Editor.apply {} { seed := 0 } fkOnlyHolder
          (.deleteRelationship ⟨"s"⟩ ⟨"r"⟩)).result = .ok db' ∧
        fkOnlyHolder.FindsTable ⟨"s"⟩ ⟨"h"⟩ t ∧ t.columns ≠ [] ∧
        db'.FindsTable ⟨"s"⟩ ⟨"h"⟩ t' ∧ t'.columns = [] :=
  ⟨by rfl, _, _, _, rfl, ⟨_, rfl, rfl⟩, by decide, ⟨_, rfl, rfl⟩, rfl⟩

end SchemaDesign
