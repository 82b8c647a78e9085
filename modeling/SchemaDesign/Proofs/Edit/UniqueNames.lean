import SchemaDesign.Proofs.Edit.NameSteps
import SchemaDesign.Proofs.Edit.Ids
import SchemaDesign.Proofs.NameChecks

/-!
# Operations keep name scopes unique

Every successful operation on a snapshot with unique names in every scope leaves unique names
(`Editor.apply_keeps_names_unique`). Operations that create or rename check the new name against
its scope just before storing it; a rename also needs the ids of the scope to be distinct, so
that the name check and the change find the same entity: those operations keep unique names from
snapshots with distinct ids, as accepted snapshots are. Generated names come from the steps of
`NameSteps`: NOT_NULL constraints, `pk_<table>` keys and foreign-key columns.

Creating a column picks the name of its NOT_NULL constraint before the column is stored. Storing
the column leaves the constraint names of the schema as they are, so the name is still free when
the constraint is stored (`KeepsFrom.bind_carry`).
-/

namespace SchemaDesign

/-- Changing a table without touching its constraints leaves the constraint names of its
schema. -/
theorem Database.constraintNames_updateTable {db : Database} {sid tid : Id} {f : Table → Table}
    (hf : ∀ t, (f t).constraintNames = t.constraintNames) {s' : Schema}
    (hs' : (db.updateTable sid tid f).schema? sid = some s') :
    ∃ s, db.schema? sid = some s ∧ s'.constraintNames = s.constraintNames := by
  simp only [Database.updateTable, Database.schema?] at hs'
  rw [find?_updateFirst] at hs'
  · obtain ⟨s, hs, rfl⟩ := Option.map_eq_some_iff.1 hs'
    exact ⟨s, hs, flatMap_updateFirst_of_key s.tables fun t _ => hf t⟩
  · intro _ h
    exact h

namespace EditM

section Carry

variable {R : Database → Database → Prop} [IsPreorder Database R]

/-- A step that keeps `R` and carries `Q` from its start to its end, before steps that keep `R`
from `Q`. -/
theorem KeepsFrom.bind_carry {α β : Type} {P Q : Database → Prop} {x : EditM α}
    {f : α → EditM β} (hx : KeepsFrom P R x) (hQ : KeepsFrom P (fun db db' => Q db → Q db') x)
    (hf : ∀ a, KeepsFrom Q R (f a)) : KeepsFrom (fun db => P db ∧ Q db) R (x >>= f) := by
  intro st b st'' hp h
  obtain ⟨a, st', h₁, h₂⟩ := run_bind_ok h
  exact IsTrans.trans _ _ _ (hx st a st' hp.1 h₁) (hf a st' b st'' (hQ st a st' hp.1 h₁ hp.2) h₂)

end Carry

/-- Changing schema `sid` in a way that keeps its name and unique names. -/
theorem keeps_modifySchema_names {sid : Id} {g : Schema → Schema} (hname : ∀ s, (g s).name = s.name)
    (hg : ∀ s, s.NamesUnique → (g s).NamesUnique) :
    Keeps Database.KeepsUniqueNames (modifySchema sid g) :=
  KeepsFrom.keeps (keepsFrom_modifySchema fun _ s _ hs hu =>
    hu.updateSchema hs (hname s) (hg s (hu.schema hs)))

/-! ## Schemas and tables -/

theorem keepsNames_createSchema (d : SchemaDraft) :
    Keeps Database.KeepsUniqueNames (createSchema d) := by
  unfold createSchema
  refine Keeps.bind_reads (reads_checkSchemaName _ _) fun _ => ?_
  refine KeepsFrom.bind_eq (keeps_ensureFreshId _ _) fun _ => ?_
  refine KeepsFrom.bind_reads reads_database fun db => ?_
  refine keepsFrom_setDatabase fun db₀ hdb hu => ?_
  obtain ⟨hfree, rfl⟩ := hdb
  exact hu.appendSchema (not_mem_of_excluded_none hfree) rfl

theorem keepsNames_deleteSchema (sid : Id) : Keeps Database.KeepsUniqueNames (deleteSchema sid) := by
  unfold deleteSchema
  refine Keeps.bind (keeps_schema _).of_eq fun _ => ?_
  refine Keeps.bind_reads reads_database fun db => ?_
  refine KeepsFrom.bind_eq keeps_config fun _ => ?_
  have hdrop : KeepsFrom (fun db₀ => db = db₀) Database.KeepsUniqueNames
      (setDatabase { db with schemas := db.schemas.filter (·.id ≠ sid) }) :=
    keepsFrom_setDatabase fun _ hdb hu => (hdb ▸ hu).filterSchemas _
  dsimp only
  split
  · exact (Keeps.throw_bind _ _).keepsFrom
  · exact hdrop

theorem keepsNames_changeSchemaName (sid : Id) (name : String) :
    KeepsFrom (·.ids.Nodup) Database.KeepsUniqueNames (changeSchemaName sid name) := by
  unfold changeSchemaName
  refine KeepsFrom.bind_eq (keeps_schema _) fun _ => ?_
  refine KeepsFrom.bind_reads (reads_checkSchemaName _ _) fun _ => ?_
  refine keepsFrom_modifySchema fun db s hp _ hu => ?_
  obtain ⟨hids, hfree⟩ := hp
  exact hu.renameSchema (Database.schemaIds_nodup hids) (key_eq_of_excluded_some hfree)

theorem keepsNames_createTable (sid : Id) (d : TableDraft) :
    Keeps Database.KeepsUniqueNames (createTable sid d) := by
  unfold createTable
  refine Keeps.bind_reads (reads_checkTableName _ _ _) fun _ => ?_
  refine KeepsFrom.bind_eq (keeps_ensureFreshId _ _) fun _ => ?_
  refine keepsFrom_modifySchema fun db s hfree hs hu => ?_
  -- the new table has no parts, and a name no table of the schema has
  exact hu.updateSchema hs rfl ((hu.schema hs).appendTable
    (not_mem_of_excluded_none (hfree s hs)) ⟨List.nodup_nil, List.nodup_nil⟩ rfl rfl)

theorem keepsNames_deleteTable (sid tid : Id) : Keeps Database.KeepsUniqueNames (deleteTable sid tid) := by
  unfold deleteTable
  refine Keeps.bind (keeps_table _ _).of_eq fun _ => Keeps.bind (keeps_schema _).of_eq fun _ => ?_
  refine Keeps.bind (Keeps.forM (fun _ => ?_) _) fun _ =>
    keeps_modifySchema_names (fun _ => rfl) fun s hs => hs.filterTables _
  refine Keeps.bind (keeps_schema _).of_eq fun _ => ?_
  split
  · exact keepsNames_deleteRelationship _ _
  · exact Keeps.pure _

/-- A table renamed to a name the check found free but for the table itself. -/
theorem keepsNames_changeTableName (sid tid : Id) (name : String) :
    KeepsFrom (·.ids.Nodup) Database.KeepsUniqueNames (changeTableName sid tid name) := by
  unfold changeTableName
  refine KeepsFrom.bind_eq (keeps_table _ _) fun _ => ?_
  refine KeepsFrom.bind_reads (reads_checkTableName _ _ _) fun _ => ?_
  refine keepsFrom_modifyTable fun db s _ hp hs _ hu => ?_
  obtain ⟨hids, hfree⟩ := hp
  exact hu.updateSchema hs rfl ((hu.schema hs).renameTable
    (Database.tableIds_nodup hids (List.mem_of_find?_eq_some hs)) (key_eq_of_excluded_some (hfree s hs)))

theorem keepsNames_changeTableComment (sid tid : Id) (comment : Option String) :
    Keeps Database.KeepsUniqueNames (changeTableComment sid tid comment) :=
  keeps_modifyTable_names fun _ => Table.namesWithin_of_eq rfl rfl rfl rfl rfl

/-! ## Columns -/

/-- The column put in place under a name the check found free in the table read. -/
theorem keepsFrom_insertColumn_names {P : Database → Prop} {sid tid : Id} (t : Table) {c : Column}
    (i : Nat) (hP : ∀ db, P db → db.FindsTable sid tid t ∧
      ∀ c' ∈ t.columns, c'.name = c.name → isExcluded none c'.id = true) :
    KeepsFrom P Database.KeepsUniqueNames
      (modifyTable sid tid fun t => ({ t with columns := insertAt t.columns i c } : Table).resequenceColumns) :=
  keepsFrom_modifyTable_names fun _ s t₀ hp hs ht hu => by
    obtain ⟨hfound, hc⟩ := hP _ hp
    obtain rfl := hfound.unique ⟨s, hs, ht⟩
    exact Table.fit_insertColumn hu (Schema.mem_of_table? ht).1 i (not_mem_of_excluded_none hc)

/-- Storing a column leaves a constraint name free in its schema. -/
theorem keepsFrom_insertColumn_constraintNameFree {P : Database → Prop} {sid tid : Id} (i : Nat)
    (c : Column) (name : String) :
    KeepsFrom P (fun db db' => (∀ s, db.schema? sid = some s → name ∉ s.constraintNames) →
      ∀ s, db'.schema? sid = some s → name ∉ s.constraintNames)
      (modifyTable sid tid fun t => ({ t with columns := insertAt t.columns i c } : Table).resequenceColumns) :=
  keepsFrom_modifyTable fun _ _ _ _ _ _ hfree s' hs' => by
    obtain ⟨s, hs, hnames⟩ := Database.constraintNames_updateTable (fun _ => by rfl) hs'
    rw [hnames]
    exact hfree s hs

theorem keepsFrom_storeColumn {β : Type} {P : Database → Prop} {sid tid : Id} (t : Table)
    {c : Column} (i : Nat) {f : Unit → EditM β} (hP : ∀ db, P db → db.FindsTable sid tid t ∧
      ∀ c' ∈ t.columns, c'.name = c.name → isExcluded none c'.id = true)
    (hf : ∀ u, Keeps Database.KeepsUniqueNames (f u)) :
    KeepsFrom P Database.KeepsUniqueNames ((modifyTable sid tid fun t =>
      ({ t with columns := insertAt t.columns i c } : Table).resequenceColumns) >>= f) :=
  KeepsFrom.bind (keepsFrom_insertColumn_names t i hP) hf

/-- The column put in place under a name the check found free, then steps that keep unique
names while a constraint name picked before stays free. -/
theorem keepsFrom_storeColumn_carry {β : Type} {P : Database → Prop} {sid tid : Id} (t : Table)
    {c : Column} (i : Nat) {name : String} {f : Unit → EditM β}
    (hP : ∀ db, P db → db.FindsTable sid tid t ∧
      ∀ c' ∈ t.columns, c'.name = c.name → isExcluded none c'.id = true)
    (hf : ∀ u, KeepsFrom (fun db => ∀ s, db.schema? sid = some s → name ∉ s.constraintNames)
      Database.KeepsUniqueNames (f u)) :
    KeepsFrom (fun db => P db ∧ ∀ s, db.schema? sid = some s → name ∉ s.constraintNames)
      Database.KeepsUniqueNames ((modifyTable sid tid fun t =>
        ({ t with columns := insertAt t.columns i c } : Table).resequenceColumns) >>= f) :=
  KeepsFrom.bind_carry (keepsFrom_insertColumn_names t i hP)
    (keepsFrom_insertColumn_constraintNameFree i c name) hf

theorem keepsFrom_appendNotNull_names {sid tid : Id} {name : String} {k : Constraint} :
    KeepsFrom (fun db => (∀ s, db.schema? sid = some s → name ∉ s.constraintNames) ∧ k.name = name)
      Database.KeepsUniqueNames
      (modifyTable sid tid fun t => { t with constraints := t.constraints ++ [k] }) :=
  keepsFrom_modifyTable_names fun _ s _ hp hs ht hu =>
    Table.fit_appendConstraint hu (Schema.mem_of_table? ht).1 (hp.2 ▸ hp.1 s hs)

/-- Creating a column stores it under its checked name, then its NOT_NULL constraint under the
name picked before the column was stored, then grows the key. -/
theorem keepsNames_createColumn (sid tid : Id) (d : ColumnDraft) :
    Keeps Database.KeepsUniqueNames (createColumn sid tid d) := by
  unfold createColumn
  simp only [pure_bind, bind_map_left]
  refine Keeps.bind (keeps_schema _).of_eq fun _ => ?_
  refine Keeps.bind_reads (reads_checkColumnName _ _ _ _) fun _ => ?_
  refine KeepsFrom.bind_eq (keeps_ensureFreshId _ _) fun _ => ?_
  refine KeepsFrom.bind_eq (keeps_check _) fun _ => ?_
  refine KeepsFrom.bind_reads (reads_table _ _) fun t => ?_
  -- past the auto-increment check or not, the same steps follow
  refine KeepsFrom.ite (fun _ => KeepsFrom.bind_eq (keeps_check _) fun _ => ?_) fun _ => ?_
  all_goals
    refine KeepsFrom.ite (fun _ => (Keeps.throw_bind _ _).keepsFrom) fun _ => ?_
    refine KeepsFrom.ite (fun _ => keepsFrom_storeColumn t _ (fun _ hp => ⟨hp.2, hp.1 _ hp.2⟩)
      fun _ => ?_) fun _ => ?_
    -- the NOT NULL constraint takes the name picked before the column was stored
    on_goal 2 =>
      refine KeepsFrom.bind_reads (reads_freshConstraintName _ _) fun _ => ?_
      refine keepsFrom_storeColumn_carry t _ (fun _ hp => ⟨hp.2, hp.1 _ hp.2⟩) fun _ => ?_
      refine KeepsFrom.bind_reads (reads_notNullConstraint_name _ _ _) fun _ => ?_
      refine KeepsFrom.bind keepsFrom_appendNotNull_names fun _ => ?_
  all_goals
    exact Keeps.ite (fun _ => Keeps.bind (keepsNames_addToPrimaryKey _ _ _) fun _ =>
      Keeps.bind (keepsNames_propagateKeys _ _ _) fun _ => Keeps.pure _) fun _ => Keeps.pure _

theorem keepsNames_deleteColumn (sid tid cid : Id) :
    Keeps Database.KeepsUniqueNames (deleteColumn sid tid cid) :=
  keeps_deleteColumn_of (keepsNames_cascadeKeyRemoval sid)
    (keeps_modifyTable_names fun t => Table.namesWithin_detachColumn t _)

/-- A column renamed to a name the check found free in its table but for the column itself. -/
theorem keepsNames_changeColumnName (sid tid cid : Id) (name : String) :
    KeepsFrom (·.ids.Nodup) Database.KeepsUniqueNames (changeColumnName sid tid cid name) := by
  unfold changeColumnName
  refine KeepsFrom.bind_eq (keeps_column _ _ _) fun _ => ?_
  refine KeepsFrom.bind_reads (reads_checkColumnName _ _ _ _) fun _ => ?_
  refine keepsFrom_modifyTable_names fun db s t hp hs ht hu => ?_
  obtain ⟨hids, hfree⟩ := hp
  have ht' := (Schema.mem_of_table? ht).1
  exact Table.fit_renameColumn hu ht'
    (Database.columnIds_nodup hids (List.mem_of_find?_eq_some hs) ht')
    (key_eq_of_excluded_some (hfree t ⟨s, hs, ht⟩))

theorem keepsNames_changeColumnType (sid tid cid : Id) (dataType : Option String)
    (ls : Option LengthScale) :
    Keeps Database.KeepsUniqueNames (changeColumnType sid tid cid dataType ls) :=
  keeps_changeColumnType_of (keeps_modifyTable_names fun t => Table.namesWithin_updateColumn t _ fun _ => rfl)
    (keepsNames_mirrorTypeChange _ _ _ _ _)

/-- Moving a column puts back the table read with the column found elsewhere. -/
theorem keepsNames_changeColumnPosition (sid tid cid : Id) (position : Nat) :
    Keeps Database.KeepsUniqueNames (changeColumnPosition sid tid cid position) := by
  unfold changeColumnPosition putTable
  dsimp only
  refine Keeps.bind (keeps_column _ _ _).of_eq fun _ => ?_
  refine Keeps.bind_reads (reads_table _ _) fun t => ?_
  split
  · exact (Keeps.throw_bind _ _).keepsFrom
  split
  · exact (Keeps.pure _).keepsFrom
  next c hc =>
    refine keepsFrom_modifyTable_names fun db s t₀ ht hs ht₀ hu => ?_
    obtain rfl := ht.unique ⟨s, hs, ht₀⟩
    exact Table.fit_moveColumn hu (Schema.mem_of_table? ht₀).1 hc _

theorem keepsNames_changeColumnNullable (sid tid cid : Id) (nullable : Bool) :
    Keeps Database.KeepsUniqueNames (changeColumnNullable sid tid cid nullable) :=
  keeps_changeColumnNullable_of (fun _ => keeps_modifyTable_names fun t => Table.namesWithin_filterConstraints t _)
    fun _ _ _ => keepsNames_addNotNull _ _ _ _ _

theorem keepsNames_changeColumnAutoIncrement (sid tid cid : Id) (enabled : Bool) :
    Keeps Database.KeepsUniqueNames (changeColumnAutoIncrement sid tid cid enabled) :=
  keeps_changeColumnAutoIncrement_of (keeps_modifyTable_names fun t => Table.namesWithin_updateColumn t _ fun _ => rfl)

/-! ## Indexes -/

/-- An index stored under a name the check found free in the schema. -/
theorem keepsFrom_appendIndex_names {P : Database → Prop} {sid tid : Id} {i : Index}
    (hP : ∀ db, P db → ∀ s, db.schema? sid = some s →
      ∀ i' ∈ s.indexes, i'.name = i.name → isExcluded none i'.id = true) :
    KeepsFrom P Database.KeepsUniqueNames
      (modifyTable sid tid fun t => { t with indexes := t.indexes ++ [i] }) :=
  keepsFrom_modifyTable_names fun _ s _ hp hs ht hu => by
    have hfree := not_mem_of_excluded_none (hP _ hp s hs)
    rw [Schema.indexes_map_name] at hfree
    exact Table.fit_appendIndex hu (Schema.mem_of_table? ht).1 hfree

theorem keepsNames_createIndex (sid tid : Id) (d : IndexDraft) :
    Keeps Database.KeepsUniqueNames (createIndex sid tid d) :=
  keeps_createIndex_of (reads_checkIndexName _ _ _) (fun _ _ _ _ => trivial) fun _ _ =>
    keepsFrom_appendIndex_names fun _ hp => hp

theorem keepsNames_deleteIndex (sid tid iid : Id) :
    Keeps Database.KeepsUniqueNames (deleteIndex sid tid iid) :=
  Keeps.bind (keeps_index _ _ _) fun _ =>
    keeps_modifyTable_names fun t => Table.namesWithin_filterIndexes t _

/-- An index renamed to a name the check found free in the schema but for the index itself. -/
theorem keepsNames_changeIndexName (sid tid iid : Id) (name : String) :
    KeepsFrom (·.ids.Nodup) Database.KeepsUniqueNames (changeIndexName sid tid iid name) := by
  unfold changeIndexName
  refine KeepsFrom.bind_eq (keeps_index _ _ _) fun _ => ?_
  refine KeepsFrom.bind_reads (reads_checkIndexName _ _ _) fun _ => ?_
  refine keepsFrom_modifyTable_names fun db s t hp hs ht hu => ?_
  obtain ⟨hids, hfree⟩ := hp
  exact Table.fit_renameIndex hu (Schema.mem_of_table? ht).1
    (Database.indexIds_nodup hids (List.mem_of_find?_eq_some hs))
    (key_eq_of_excluded_some (hfree s hs))

theorem keepsNames_addColumnToIndex (sid tid iid : Id) (d : IndexColumnDraft) :
    Keeps Database.KeepsUniqueNames (addColumnToIndex sid tid iid d) :=
  keeps_addColumnToIndex_of (keeps_modifyTable_names fun t => Table.namesWithin_updateIndex t _ fun _ => rfl)

theorem keepsNames_removeColumnFromIndex (sid tid iid eid : Id) :
    Keeps Database.KeepsUniqueNames (removeColumnFromIndex sid tid iid eid) :=
  keeps_removeColumnFromIndex_of (keeps_modifyTable_names fun t => Table.namesWithin_filterIndexes t _) fun _ =>
    Keeps.keepsFrom (keeps_modifyTable_names fun t => Table.namesWithin_updateIndex t _ fun _ => rfl)

theorem keepsNames_changeIndexColumnSortDir (sid tid iid eid : Id) (sortDir : SortDir) :
    Keeps Database.KeepsUniqueNames (changeIndexColumnSortDir sid tid iid eid sortDir) :=
  keeps_changeIndexColumnSortDir_of (keeps_modifyTable_names fun t => Table.namesWithin_updateIndex t _ fun _ => rfl)

/-! ## Constraints -/

/-- A constraint stored under a name the check found free in the schema. -/
theorem keepsFrom_appendConstraint_names {P : Database → Prop} {sid tid : Id} {k : Constraint}
    (hP : ∀ db, P db → ∀ s, db.schema? sid = some s →
      ∀ k' ∈ s.constraints, k'.name = k.name → isExcluded none k'.id = true) :
    KeepsFrom P Database.KeepsUniqueNames
      (modifyTable sid tid fun t => { t with constraints := t.constraints ++ [k] }) :=
  keepsFrom_modifyTable_names fun _ s _ hp hs ht hu => by
    have hfree := not_mem_of_excluded_none (hP _ hp s hs)
    rw [Schema.constraints_map_name] at hfree
    exact Table.fit_appendConstraint hu (Schema.mem_of_table? ht).1 hfree

theorem keepsNames_createConstraint (sid tid : Id) (d : ConstraintDraft) :
    Keeps Database.KeepsUniqueNames (createConstraint sid tid d) :=
  keeps_createConstraint_of (reads_checkConstraintName _ _ _) (fun _ _ _ _ => trivial)
    (fun _ _ => keepsFrom_appendConstraint_names fun _ hp => hp) (keepsNames_propagateKeys sid tid)

theorem keepsNames_deleteConstraint (sid tid kid : Id) :
    Keeps Database.KeepsUniqueNames (deleteConstraint sid tid kid) :=
  keeps_deleteConstraint_of (keeps_modifyTable_names fun t => Table.namesWithin_filterConstraints t _)
    (keepsNames_cascadeKeyRemoval sid)

/-- A constraint renamed to a name the check found free in the schema but for the constraint
itself. -/
theorem keepsNames_changeConstraintName (sid tid kid : Id) (name : String) :
    KeepsFrom (·.ids.Nodup) Database.KeepsUniqueNames (changeConstraintName sid tid kid name) := by
  unfold changeConstraintName
  refine KeepsFrom.bind_eq (keeps_constraint _ _ _) fun _ => ?_
  refine KeepsFrom.bind_reads (reads_checkConstraintName _ _ _) fun _ => ?_
  refine keepsFrom_modifyTable_names fun db s t hp hs ht hu => ?_
  obtain ⟨hids, hfree⟩ := hp
  exact Table.fit_renameConstraint hu (Schema.mem_of_table? ht).1
    (Database.constraintIds_nodup hids (List.mem_of_find?_eq_some hs))
    (key_eq_of_excluded_some (hfree s hs))

theorem keepsNames_addColumnToConstraint (sid tid kid : Id) (d : ConstraintColumnDraft) :
    Keeps Database.KeepsUniqueNames (addColumnToConstraint sid tid kid d) :=
  keeps_addColumnToConstraint_of (keeps_modifyTable_names fun t => Table.namesWithin_updateConstraint t _ fun _ => rfl)
    (keepsNames_propagateKeys sid tid)

theorem keepsNames_removeColumnFromConstraint (sid tid kid eid : Id) :
    Keeps Database.KeepsUniqueNames (removeColumnFromConstraint sid tid kid eid) :=
  keeps_removeColumnFromConstraint_of (keeps_modifyTable_names fun t => Table.namesWithin_filterConstraints t _)
    (fun _ => Keeps.keepsFrom (keeps_modifyTable_names fun t => Table.namesWithin_updateConstraint t _ fun _ => rfl))
    (keepsNames_cascadeKeyRemoval sid)

/-! ## Relationships -/

theorem keepsFrom_appendRelationship_names {P : Database → Prop} {sid tid : Id} {r : Relationship}
    (hP : ∀ db, P db → ∀ t, db.FindsTable sid tid t →
      ∀ r' ∈ t.relationships, r'.name = r.name → isExcluded none r'.id = true) :
    KeepsFrom P Database.KeepsUniqueNames
      (modifyTable sid tid fun t => { t with relationships := t.relationships ++ [r] }) :=
  keepsFrom_modifyTable_names fun _ s t hp hs ht hu =>
    Table.fit_appendRelationship hu (Schema.mem_of_table? ht).1
      (not_mem_of_excluded_none (hP _ hp t ⟨s, hs, ht⟩))

theorem keepsNames_createRelationship (sid : Id) (d : RelationshipDraft) :
    Keeps Database.KeepsUniqueNames (createRelationship sid d) :=
  keeps_createRelationship_of (reads_checkRelationshipName _ _ _ _)
    (keepsFrom_appendRelationship_names fun _ hp => hp) (keepsNames_attachForeignKey _ _ _ _)
    (keepsNames_completeIdentifying _ _)

theorem Database.tableRelationshipIds_nodup {db : Database} (hn : db.ids.Nodup) {s : Schema}
    (hs : s ∈ db.schemas) {t : Table} (ht : t ∈ s.tables) : (t.relationships.map (·.id)).Nodup := by
  refine (Database.relationshipIds_nodup hn hs).sublist ?_
  rw [Schema.relationships, List.map_flatMap, List.flatMap_def]
  exact List.sublist_flatten_of_mem (List.mem_map_of_mem ht)

/-- A relationship renamed to a name the check found free in its holder but for the
relationship itself: the check and the change read the same holder. -/
theorem keepsNames_changeRelationshipName (sid rid : Id) (name : String) :
    KeepsFrom (·.ids.Nodup) Database.KeepsUniqueNames (changeRelationshipName sid rid name) := by
  unfold changeRelationshipName modifyRelationship
  refine KeepsFrom.bind_reads (reads_relationship _ _) fun ⟨holder, r⟩ => ?_
  refine KeepsFrom.bind_reads (reads_checkRelationshipName _ _ _ _) fun _ => ?_
  refine KeepsFrom.bind_reads (reads_relationship _ _) fun ⟨holder', r'⟩ => ?_
  refine KeepsFrom.bind_reads (reads_table _ _) fun t => ?_
  dsimp only
  split
  · exact (Keeps.throw_bind _ _).keepsFrom
  refine keepsFrom_modifyTable_names fun db s t₀ hp hs ht₀ hu => ?_
  obtain ⟨⟨⟨⟨hids, s₁, hs₁, hfound⟩, hfree⟩, s₂, hs₂, hfound'⟩, ht⟩ := hp
  obtain rfl : s₁ = s := Option.some.inj (hs₁.symm.trans hs)
  obtain rfl : s₂ = s₁ := Option.some.inj (hs₂.symm.trans hs)
  obtain ⟨rfl, -⟩ := Prod.mk.inj (Option.some.inj (hfound.symm.trans hfound'))
  obtain rfl := ht.unique ⟨s₂, hs₂, ht₀⟩
  have hmem := (Schema.mem_of_table? ht₀).1
  exact Table.fit_renameRelationship hu hmem
    (Database.tableRelationshipIds_nodup hids (List.mem_of_find?_eq_some hs₂) hmem)
    (key_eq_of_excluded_some (hfree t ht))

theorem keepsNames_changeRelationshipCardinality (sid rid : Id) (cardinality : Cardinality) :
    Keeps Database.KeepsUniqueNames (changeRelationshipCardinality sid rid cardinality) :=
  Keeps.bind (keepsNames_modifyRelationship _ _ fun _ => rfl) fun _ => keeps_revalidateRelationship _ _

theorem keepsNames_changeRelationshipActions (sid rid : Id) (onDelete onUpdate : ReferentialAction) :
    Keeps Database.KeepsUniqueNames (changeRelationshipActions sid rid onDelete onUpdate) :=
  Keeps.bind (keepsNames_modifyRelationship _ _ fun _ => rfl) fun _ => keeps_revalidateRelationship _ _

theorem keepsNames_removeFromPrimaryKey (sid tid : Id) (cs : List Id) :
    Keeps Database.KeepsUniqueNames (removeFromPrimaryKey sid tid cs) :=
  keeps_modifyTable_names fun t => Table.namesWithin_removeKeyColumns t cs

theorem keepsNames_changeRelationshipKind (sid rid : Id) (kind : RelationshipKind) :
    Keeps Database.KeepsUniqueNames (changeRelationshipKind sid rid kind) := by
  cases kind with
  | identifying =>
    exact keeps_makeIdentifying_of (keepsNames_modifyRelationship _ _ fun _ => rfl)
      (keepsNames_completeIdentifying _ _)
  | nonIdentifying =>
    exact keeps_makeNonIdentifying_of (keepsNames_modifyRelationship _ _ fun _ => rfl)
      (keepsNames_removeFromPrimaryKey sid) (keepsNames_cascadeKeyRemoval sid)

theorem keepsNames_addColumnToRelationship (sid rid : Id) (m : MappingDraft) :
    Keeps Database.KeepsUniqueNames (addColumnToRelationship sid rid m) :=
  keeps_addColumnToRelationship_of (fun _ _ => keepsNames_attachForeignKey _ _ _ _ _)
    (keepsNames_addToPrimaryKey sid) (keepsNames_propagateKeys sid)

theorem keepsNames_removeColumnFromRelationship (sid rid mid : Id) :
    Keeps Database.KeepsUniqueNames (removeColumnFromRelationship sid rid mid) :=
  keeps_removeColumnFromRelationship_of
    (fun _ => keeps_modifyTable_names fun t => Table.namesWithin_editRelationship t _ fun _ => by rfl)
    (keepsNames_releaseFkColumns sid)

end EditM

namespace Operation

open EditM in
/-- Every operation keeps names unique, from a snapshot with distinct ids. -/
theorem keepsNames_run :
    ∀ op : Operation, KeepsFrom (·.ids.Nodup) Database.KeepsUniqueNames op.run
  | .createSchema d => (keepsNames_createSchema d).keepsFrom
  | .deleteSchema s => (keepsNames_deleteSchema s).keepsFrom
  | .changeSchemaName s n => keepsNames_changeSchemaName s n
  | .createTable s d => (keepsNames_createTable s d).keepsFrom
  | .deleteTable s t => (keepsNames_deleteTable s t).keepsFrom
  | .changeTableName s t n => keepsNames_changeTableName s t n
  | .changeTableComment s t c => (keepsNames_changeTableComment s t c).keepsFrom
  | .createColumn s t d => (keepsNames_createColumn s t d).keepsFrom
  | .deleteColumn s t c => (keepsNames_deleteColumn s t c).keepsFrom
  | .changeColumnName s t c n => keepsNames_changeColumnName s t c n
  | .changeColumnType s t c dt ls => (keepsNames_changeColumnType s t c dt ls).keepsFrom
  | .changeColumnPosition s t c p => (keepsNames_changeColumnPosition s t c p).keepsFrom
  | .changeColumnNullable s t c b => (keepsNames_changeColumnNullable s t c b).keepsFrom
  | .changeColumnAutoIncrement s t c b => (keepsNames_changeColumnAutoIncrement s t c b).keepsFrom
  | .createIndex s t d => (keepsNames_createIndex s t d).keepsFrom
  | .deleteIndex s t i => (keepsNames_deleteIndex s t i).keepsFrom
  | .changeIndexName s t i n => keepsNames_changeIndexName s t i n
  | .addColumnToIndex s t i d => (keepsNames_addColumnToIndex s t i d).keepsFrom
  | .removeColumnFromIndex s t i e => (keepsNames_removeColumnFromIndex s t i e).keepsFrom
  | .changeIndexColumnSortDir s t i e d => (keepsNames_changeIndexColumnSortDir s t i e d).keepsFrom
  | .createConstraint s t d => (keepsNames_createConstraint s t d).keepsFrom
  | .deleteConstraint s t k => (keepsNames_deleteConstraint s t k).keepsFrom
  | .changeConstraintName s t k n => keepsNames_changeConstraintName s t k n
  | .addColumnToConstraint s t k d => (keepsNames_addColumnToConstraint s t k d).keepsFrom
  | .removeColumnFromConstraint s t k e =>
    (keepsNames_removeColumnFromConstraint s t k e).keepsFrom
  | .createRelationship s d => (keepsNames_createRelationship s d).keepsFrom
  | .deleteRelationship s r => (keepsNames_deleteRelationship s r).keepsFrom
  | .changeRelationshipName s r n => keepsNames_changeRelationshipName s r n
  | .changeRelationshipCardinality s r c => (keepsNames_changeRelationshipCardinality s r c).keepsFrom
  | .changeRelationshipKind s r k => (keepsNames_changeRelationshipKind s r k).keepsFrom
  | .changeRelationshipActions s r d u => (keepsNames_changeRelationshipActions s r d u).keepsFrom
  | .addColumnToRelationship s r m => (keepsNames_addColumnToRelationship s r m).keepsFrom
  | .removeColumnFromRelationship s r m => (keepsNames_removeColumnFromRelationship s r m).keepsFrom

end Operation

/-- **Every accepted operation keeps each name once in its scope**, so validating the snapshot it
leaves refuses no name as repeated. -/
theorem Editor.apply_keeps_names_unique {config : EditorConfig} {supply : IdSupply}
    {db db' : Database} {op : Operation} (hv : db.validate = .ok ())
    (happ : (Editor.apply config supply db op).result = .ok db') :
    db'.NamesUnique ∧ ∀ e, db'.validate = .error e → e.repeatsName = false := by
  unfold Editor.apply at happ
  split at happ
  next st hrun =>
    cases happ
    have hu : st.db.NamesUnique := op.keepsNames_run _ _ _
      (Database.labelledIds_nodup_of_validate hv) hrun (Database.namesUnique_of_validate hv)
    exact ⟨hu, fun _ he => hu.validate_not_repeatsName he⟩
  next => cases happ

/-- A NOT NULL key column `line` created in `lines`: the edit names a NOT_NULL constraint and a
primary key. -/
def lineKey : Operation :=
  .createColumn ⟨"s"⟩ ⟨"lines"⟩
    { id := ⟨"line"⟩, name := "line", dataType := some "INT", nullable := false, primaryKey := true }

set_option maxRecDepth 100000 in
theorem Editor.lineKey_keeps_names_unique :
    ordersAndLines.validate = .ok () ∧
      ∃ db', (Editor.apply {} { seed := 0 } ordersAndLines lineKey).result = .ok db' ∧
        db'.NamesUnique ∧ ∀ e, db'.validate = .error e → e.repeatsName = false := by
  have hv : ordersAndLines.validate = .ok () := by rfl
  obtain ⟨db', happ⟩ : ∃ db', (Editor.apply {} { seed := 0 } ordersAndLines lineKey).result =
      .ok db' := ⟨_, rfl⟩
  exact ⟨hv, db', happ, Editor.apply_keeps_names_unique hv happ⟩

end SchemaDesign
