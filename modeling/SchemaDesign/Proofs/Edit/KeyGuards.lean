import SchemaDesign.Proofs.Edit.Refusals

/-!
# Key columns an identifying relationship needs

An identifying relationship carries every key column of its provider into its holder's key,
through a mapping. A holder column that a mapping of such a relationship fills for a key column
of the provider is needed (`Schema.RequiresKeyColumn`), and the operations that would take it
out of the holder's key one piece at a time refuse: deleting the column, taking it out of the
primary key, deleting the primary key, and removing the mapping. The first three ask
`Schema.keyRequirement?` about every column they would take out of the key; the last checks
the one mapping it removes, against its own relationship only.

Main statement `Editor.apply_guards_key_column`: in an accepted snapshot all four refuse, with
`foreignKeyColumnRequired`, except that deleting the only column of a table is refused first
as such.
-/

namespace SchemaDesign

/-- `r`, an identifying relationship held by `t`, maps `c` onto a key column of its provider. -/
def Schema.RequiresKeyColumn (s : Schema) (t : Table) (c : Id) (r : Relationship) : Prop :=
  r ∈ t.relationships ∧ r.isIdentifying = true ∧
    ∃ p, s.table? r.pkTableId = some p ∧
      ∃ m ∈ r.columns, m.fkColumnId = c ∧ p.isKeyColumn m.pkColumnId = true

/-- The refusal to take `c` out of `t`: it names the column and a relationship that needs it. -/
def Schema.KeyColumnRefusal (s : Schema) (t : Table) (c : Id) (e : DesignError) : Prop :=
  ∃ r, s.RequiresKeyColumn t c r ∧ e = .foreignKeyColumnRequired (t.columnLabel c) r.name

theorem Table.isKeyColumn_iff {t : Table} {c : Id} : t.isKeyColumn c = true ↔ c ∈ t.keyColumns := by
  unfold isKeyColumn keyColumns
  cases t.primaryKey? with
  | none => simp
  | some pk => simp [Constraint.containsColumn, Constraint.columnIds]

namespace Schema

variable {s : Schema} {t : Table} {c : Id}

/-- The relationship `keyRequirement?` reports needs the column. -/
theorem requiresKeyColumn_of_keyRequirement? {r : Relationship}
    (h : s.keyRequirement? t c = some r) : s.RequiresKeyColumn t c r := by
  unfold keyRequirement? at h
  have hpred := List.find?_some h
  simp only [Bool.and_eq_true] at hpred
  obtain ⟨hid, hmaps⟩ := hpred
  refine ⟨List.mem_of_find?_eq_some h, hid, ?_⟩
  cases hp : s.table? r.pkTableId with
  | none => rw [hp] at hmaps; cases hmaps
  | some p =>
    rw [hp] at hmaps
    obtain ⟨m, hm, hmc⟩ := List.any_eq_true.1 hmaps
    simp only [Bool.and_eq_true, decide_eq_true_eq] at hmc
    exact ⟨p, rfl, m, hm, hmc.1, hmc.2⟩

/-- A column that some relationship needs is reported by `keyRequirement?`. -/
theorem keyRequirement?_isSome {r : Relationship} (h : s.RequiresKeyColumn t c r) :
    (s.keyRequirement? t c).isSome := by
  obtain ⟨hr, hid, p, hp, m, hm, hmc, hkey⟩ := h
  unfold keyRequirement?
  rw [List.find?_isSome]
  refine ⟨r, hr, ?_⟩
  simp only [hid, hp, Bool.true_and]
  exact List.any_eq_true.2 ⟨m, hm, by simp [hmc, hkey]⟩

end Schema

/-! ## The refusals, run forward -/

namespace EditM

variable {st : Session} {sid tid : Id} {s : Schema} {t : Table}

theorem run_ensureKeyColumnRemovable_of_some (hs : st.db.schema? sid = some s)
    (ht : s.table? tid = some t) {c : Id} {r : Relationship} (hr : s.keyRequirement? t c = some r) :
    (ensureKeyColumnRemovable sid tid c).run st =
      .error (.foreignKeyColumnRequired (t.columnLabel c) r.name) st := by
  unfold ensureKeyColumnRemovable
  rw [run_bind_of_ok (run_schema hs), run_bind_of_ok (run_table hs ht), hr]
  rfl

theorem run_ensureKeyColumnRemovable_of_none (hs : st.db.schema? sid = some s)
    (ht : s.table? tid = some t) {c : Id} (hr : s.keyRequirement? t c = none) :
    (ensureKeyColumnRemovable sid tid c).run st = .ok () st := by
  unfold ensureKeyColumnRemovable
  rw [run_bind_of_ok (run_schema hs), run_bind_of_ok (run_table hs ht), hr]
  rfl

/-- Guarding a list of columns refuses at the first column some relationship needs. -/
theorem run_forM_ensureKeyColumnRemovable (st : Session) (hs : st.db.schema? sid = some s)
    (ht : s.table? tid = some t) :
    ∀ {cs : List Id}, (∃ c ∈ cs, (s.keyRequirement? t c).isSome) →
      ∃ c ∈ cs, ∃ r, s.keyRequirement? t c = some r ∧
        (cs.forM (ensureKeyColumnRemovable sid tid)).run st =
          .error (.foreignKeyColumnRequired (t.columnLabel c) r.name) st
  | [], h => by simp at h
  | c :: cs, h => by
    rw [List.forM_eq_forM, List.forM_cons]
    cases hc : s.keyRequirement? t c with
    | some r =>
      exact ⟨c, List.mem_cons_self, r, hc,
        run_bind_of_error (run_ensureKeyColumnRemovable_of_some hs ht hc)⟩
    | none =>
      -- `c` passes, so a later column is the one needed
      have hrest : ∃ c' ∈ cs, (s.keyRequirement? t c').isSome := by
        obtain ⟨c', hc', hsome⟩ := h
        rcases List.mem_cons.1 hc' with rfl | hc'
        · rw [hc] at hsome
          cases hsome
        · exact ⟨c', hc', hsome⟩
      obtain ⟨c', hc', r, hr, hrun⟩ := run_forM_ensureKeyColumnRemovable st hs ht hrest
      refine ⟨c', List.mem_cons_of_mem _ hc', r, hr, ?_⟩
      rw [run_bind_of_ok (run_ensureKeyColumnRemovable_of_none hs ht hc)]
      exact hrun

/-- Deleting a needed column refuses: as the last column of its table, else as needed. -/
theorem run_deleteColumn_of_requirement (hs : st.db.schema? sid = some s)
    (ht : s.table? tid = some t) {c : Id} {col : Column} (hc : t.column? c = some col)
    {r : Relationship} (hr : s.keyRequirement? t c = some r) :
    (deleteColumn sid tid c).run st =
      .error (if t.columns.length = 1 then .tableEmptyColumn t.name
        else .foreignKeyColumnRequired (t.columnLabel c) r.name) st := by
  unfold deleteColumn
  rw [run_bind_of_ok (run_column hs ht hc), run_bind_of_ok (run_table hs ht)]
  by_cases hone : t.columns.length = 1
  · rw [if_pos hone, if_pos hone, run_bind_of_error (run_throw _ _)]
  · rw [if_neg hone, if_neg hone, run_bind_of_error (run_ensureKeyColumnRemovable_of_some hs ht hr)]

/-- Taking a needed column out of a primary key refuses. -/
theorem run_removeColumnFromConstraint_of_requirement (hs : st.db.schema? sid = some s)
    (ht : s.table? tid = some t) {kid eid : Id} {k : Constraint} (hk : t.constraint? kid = some k)
    (hpk : k.isPrimaryKey = true) {x : ConstraintColumn} (hx : k.columns.find? (·.id = eid) = some x)
    {r : Relationship} (hr : s.keyRequirement? t x.columnId = some r) :
    (removeColumnFromConstraint sid tid kid eid).run st =
      .error (.foreignKeyColumnRequired (t.columnLabel x.columnId) r.name) st := by
  unfold removeColumnFromConstraint
  rw [run_bind_of_ok (run_constraint hs ht hk)]
  simp only [hx, hpk, if_true]
  rw [run_bind_of_error (run_ensureKeyColumnRemovable_of_some hs ht hr)]

/-- Deleting a primary key that holds a needed column refuses, at the first needed column. -/
theorem run_deleteConstraint_of_requirement (st : Session) (hs : st.db.schema? sid = some s)
    (ht : s.table? tid = some t) {kid : Id} {k : Constraint} (hk : t.constraint? kid = some k)
    (hpk : k.isPrimaryKey = true) (hneed : ∃ c ∈ k.columnIds, (s.keyRequirement? t c).isSome) :
    ∃ c ∈ k.columnIds, ∃ r, s.keyRequirement? t c = some r ∧
      (deleteConstraint sid tid kid).run st =
        .error (.foreignKeyColumnRequired (t.columnLabel c) r.name) st := by
  obtain ⟨c, hc, r, hr, hrun⟩ := run_forM_ensureKeyColumnRemovable st hs ht hneed
  refine ⟨c, hc, r, hr, ?_⟩
  unfold deleteConstraint
  rw [run_bind_of_ok (run_constraint hs ht hk)]
  simp only [hpk, if_true]
  rw [run_bind_of_error hrun]

/-- Removing a mapping of an identifying relationship onto a key column of its provider
refuses. -/
theorem run_removeColumnFromRelationship_of_key (hs : st.db.schema? sid = some s) {rid mid : Id}
    {r : Relationship} (hr : s.relationship? rid = some (t, r)) {m : KeyMapping}
    (hm : r.columns.find? (·.id = mid) = some m) (hid : r.isIdentifying = true) {p : Table}
    (hp : s.table? r.pkTableId = some p) (hkey : p.isKeyColumn m.pkColumnId = true) :
    (removeColumnFromRelationship sid rid mid).run st =
      .error (.foreignKeyColumnRequired (t.columnLabel m.fkColumnId) r.name) st := by
  unfold removeColumnFromRelationship
  rw [run_bind_of_ok (run_relationship hs hr)]
  simp only [hm, hid, if_true]
  rw [run_bind_of_ok (run_provider hs hp)]
  simp only [hkey, if_true]
  rw [run_bind_of_error (run_throw _ _)]

end EditM

/-! ## What an accepted relationship carries -/

namespace Table

variable {s : Schema} {t : Table} {r : Relationship}

/-- An accepted relationship maps columns of its holder. -/
theorem fkColumn_of_validateRelationship (h : t.validateRelationship s r = .ok ()) :
    ∀ m ∈ r.columns, (t.column? m.fkColumnId).isSome := by
  unfold validateRelationship at h
  obtain ⟨_, -, h⟩ := Except.exists_of_bind_eq_ok h
  cases hp : s.table? r.pkTableId with
  | none => rw [hp] at h; cases h
  | some p =>
    rw [hp] at h
    obtain ⟨_, -, h⟩ := Except.exists_of_bind_eq_ok h
    obtain ⟨_, hfold, -⟩ := Except.exists_of_bind_eq_ok h
    refine Except.forall_of_foldlM_eq_ok ?_ _ _ _ hfold
    intro n m n' hb
    obtain ⟨_, -, hb⟩ := Except.exists_of_bind_eq_ok hb
    split at hb
    · simp [*]
    · cases hb

/-- An accepted identifying relationship carries each key column of its provider into its
holder's key: some mapping fills it from a key column of the holder. -/
theorem keyCarried_of_validateRelationship (h : t.validateRelationship s r = .ok ())
    (hid : r.isIdentifying = true) {p : Table} (hp : s.table? r.pkTableId = some p) :
    ∀ key ∈ p.keyColumns, ∃ m ∈ r.columns, m.pkColumnId = key ∧ t.isKeyColumn m.fkColumnId = true := by
  unfold validateRelationship at h
  obtain ⟨_, -, h⟩ := Except.exists_of_bind_eq_ok h
  rw [hp] at h
  obtain ⟨_, -, h⟩ := Except.exists_of_bind_eq_ok h
  obtain ⟨_, -, h⟩ := Except.exists_of_bind_eq_ok h
  rw [if_pos hid] at h
  intro key hkey
  -- the check runs on every key column of the provider
  have hcheck : ∀ keys : List Id, checkEach keys (fun key =>
      ensure (r.columns.any fun m => m.pkColumnId = key && t.isKeyColumn m.fkColumnId)
        (.identifyingKeyNotPropagated t.name p.name (((p.column? key).map (·.name)).getD key.text)))
      = .ok () → key ∈ keys →
      (r.columns.any fun m => m.pkColumnId = key && t.isKeyColumn m.fkColumnId) = true := by
    intro keys hk hmem
    induction keys with
    | nil => cases hmem
    | cons k ks ih =>
      unfold checkEach at hk ih
      rw [List.forM_eq_forM, List.forM_cons] at hk
      obtain ⟨_, hk₁, hk₂⟩ := Except.exists_of_bind_eq_ok hk
      rcases List.mem_cons.1 hmem with rfl | hmem
      · exact ensure_eq_ok hk₁
      · exact ih hk₂ hmem
  obtain ⟨m, hm, hmk⟩ := List.any_eq_true.1 (hcheck _ h hkey)
  simp only [Bool.and_eq_true, decide_eq_true_eq] at hmk
  exact ⟨m, hm, hmk.1, hmk.2⟩

end Table

namespace Database

theorem validateRelationship_of_validate {db : Database} (h : db.validate = .ok ()) {s : Schema}
    (hs : s ∈ db.schemas) {t : Table} (ht : t ∈ s.tables) {r : Relationship}
    (hr : r ∈ t.relationships) : t.validateRelationship s r = .ok () :=
  Table.validateRelationship_of_validateRelationships
    (Schema.validateRelationships_of_validate (schemas_validate h s hs) t ht) r hr

end Database

/-! ## The four guards -/

/-- Applying `op` to `db` gives no snapshot, and refuses with an error satisfying `P`. -/
def Editor.Refuses (config : EditorConfig) (supply : IdSupply) (db : Database) (op : Operation)
    (P : DesignError → Prop) : Prop :=
  ∃ e, (Editor.apply config supply db op).result = .error e ∧ P e

theorem Editor.refuses_of_run {config : EditorConfig} {supply : IdSupply} {db : Database}
    (op : Operation) {e : DesignError} {st : Session}
    (h : op.run.run { db, config, supply } = .error e st) {P : DesignError → Prop} (hP : P e) :
    Editor.Refuses config supply db op P :=
  ⟨e, Editor.apply_result_of_error h, hP⟩

/-- Every way of taking the holder column of mapping `m` of `r` out of `t`'s key one piece at a
time refuses: deleting the column, deleting the primary key, taking the column out of the
primary key, and removing the mapping. -/
structure Editor.GuardsKeyColumn (config : EditorConfig) (supply : IdSupply) (db : Database)
    (s : Schema) (t : Table) (r : Relationship) (m : KeyMapping) : Prop where
  deleteColumn : Editor.Refuses config supply db (.deleteColumn s.id t.id m.fkColumnId) fun e =>
    if t.columns.length = 1 then e = .tableEmptyColumn t.name
    else s.KeyColumnRefusal t m.fkColumnId e
  primaryKey : ∃ k, t.primaryKey? = some k ∧
    Editor.Refuses config supply db (.deleteConstraint s.id t.id k.id)
      (fun e => ∃ c ∈ k.columnIds, s.KeyColumnRefusal t c e) ∧
    ∀ x ∈ k.columns, x.columnId = m.fkColumnId →
      Editor.Refuses config supply db (.removeColumnFromConstraint s.id t.id k.id x.id)
        (s.KeyColumnRefusal t m.fkColumnId)
  removeMapping : Editor.Refuses config supply db (.removeColumnFromRelationship s.id r.id m.id)
    (· = .foreignKeyColumnRequired (t.columnLabel m.fkColumnId) r.name)

/-- In an accepted snapshot, a holder column that an identifying relationship maps onto a key
column of its provider cannot be taken out piecemeal: each of the four operations refuses, and
names a relationship that needs the column, unless the column is the last of its table. -/
theorem Editor.apply_guards_key_column {config : EditorConfig} {supply : IdSupply}
    {db : Database} (hv : db.validate = .ok ()) {s : Schema} (hs : s ∈ db.schemas) {t : Table}
    (ht : t ∈ s.tables) {r : Relationship} (hr : r ∈ t.relationships)
    (hid : r.isIdentifying = true) {p : Table} (hp : s.table? r.pkTableId = some p)
    {m : KeyMapping} (hm : m ∈ r.columns) (hkey : p.isKeyColumn m.pkColumnId = true) :
    Editor.GuardsKeyColumn config supply db s t r m := by
  have hn := Database.labelledIds_nodup_of_validate hv
  have hsid : db.schema? s.id = some s := Database.schema?_of_mem hn hs
  have htid : s.table? t.id = some t := Schema.table?_of_mem (Database.tableIds_nodup hn hs) ht
  have hvr := Database.validateRelationship_of_validate hv hs ht hr
  -- `r` needs the column of `m`, so `keyRequirement?` reports a relationship for it
  have hneeds : ∀ m' ∈ r.columns, m'.pkColumnId = m.pkColumnId →
      s.RequiresKeyColumn t m'.fkColumnId r :=
    fun m' hm' hpk => ⟨hr, hid, p, hp, m', hm', rfl, hpk ▸ hkey⟩
  obtain ⟨r₀, hr₀⟩ := Option.isSome_iff_exists.1
    (Schema.keyRequirement?_isSome (hneeds m hm rfl))
  have hrefuse : s.KeyColumnRefusal t m.fkColumnId
      (.foreignKeyColumnRequired (t.columnLabel m.fkColumnId) r₀.name) :=
    ⟨r₀, Schema.requiresKeyColumn_of_keyRequirement? hr₀, rfl⟩
  refine ⟨?_, ?_, ?_⟩
  · obtain ⟨col, hcol⟩ := Option.isSome_iff_exists.1
      (Table.fkColumn_of_validateRelationship hvr m hm)
    refine Editor.refuses_of_run (.deleteColumn s.id t.id m.fkColumnId)
      (EditM.run_deleteColumn_of_requirement hsid htid hcol hr₀) ?_
    by_cases hone : t.columns.length = 1
    · simp only [hone, if_true]
    · simpa only [hone, if_false] using hrefuse
  · -- the key column `m` fills is carried into `t`'s key by some mapping of `r`
    obtain ⟨m', hm', hpk', hkey'⟩ := Table.keyCarried_of_validateRelationship hvr hid hp
      m.pkColumnId (Table.isKeyColumn_iff.1 hkey)
    obtain ⟨k, hk⟩ : ∃ k, t.primaryKey? = some k := by
      cases hk : t.primaryKey? with
      | none => simp [Table.isKeyColumn, hk] at hkey'
      | some k => exact ⟨k, rfl⟩
    have hkmem : k ∈ t.constraints := List.mem_of_find?_eq_some hk
    have hkid := Database.constraint?_of_mem hn hs ht hkmem
    have hpkk : k.isPrimaryKey = true := by simp [Constraint.isPrimaryKey, Table.kind_of_primaryKey? hk]
    refine ⟨k, hk, ?_, fun x hx hxc => ?_⟩
    · have hin : m'.fkColumnId ∈ k.columnIds := by
        simpa [Table.isKeyColumn_iff, Table.keyColumns, hk] using hkey'
      obtain ⟨c, hc, r', hr', hrun⟩ := EditM.run_deleteConstraint_of_requirement
        { db, config, supply } hsid htid hkid hpkk
        ⟨_, hin, Schema.keyRequirement?_isSome (hneeds m' hm' hpk')⟩
      exact Editor.refuses_of_run (.deleteConstraint s.id t.id k.id) hrun
        ⟨c, hc, r', Schema.requiresKeyColumn_of_keyRequirement? hr', rfl⟩
    · have hxr : s.keyRequirement? t x.columnId = some r₀ := hxc ▸ hr₀
      refine Editor.refuses_of_run (.removeColumnFromConstraint s.id t.id k.id x.id)
        (EditM.run_removeColumnFromConstraint_of_requirement hsid htid
        hkid hpkk (Database.entry_of_mem hn hs ht hkmem hx) hxr) ?_
      rw [hxc]
      exact hrefuse
  · have hholders := fun t ht r hr => Database.fkTableId_of_validate hv hs (t := t) ht (r := r) hr
    exact Editor.refuses_of_run (.removeColumnFromRelationship s.id r.id m.id)
      (EditM.run_removeColumnFromRelationship_of_key hsid
      (Database.relationship?_of_mem hn hs ht hholders hr) (Database.mapping_of_mem hn hs ht hr hm)
      hid hp hkey) rfl

/-- The mapping of `lines.order_id` onto `orders.id`. -/
def orderIdMapping : KeyMapping := ⟨⟨"m1"⟩, ⟨"lo"⟩, ⟨"o1"⟩, 1⟩

/-- `lines` identified by `orders`. -/
def linesByOrder : Relationship :=
  ⟨⟨"r"⟩, ⟨"lines"⟩, ⟨"orders"⟩, "fk_lines_orders", .identifying, .oneToMany, .noAction, .noAction,
    [orderIdMapping]⟩

/-- `orders`, keyed by `id`. -/
def ordersTable : Table :=
  ⟨⟨"orders"⟩, ⟨"s"⟩, "orders", none,
    [⟨⟨"o1"⟩, ⟨"orders"⟩, "id", 1, some "INT", none, false, none, none, none⟩], [],
    [⟨⟨"ko"⟩, ⟨"orders"⟩, "pk_orders", .primaryKey, none, none, [⟨⟨"ko1"⟩, ⟨"o1"⟩, 1⟩]⟩], []⟩

/-- `lines`, keyed by `order_id` and `line_no`, holding `linesByOrder`. -/
def linesTable : Table :=
  ⟨⟨"lines"⟩, ⟨"s"⟩, "lines", none,
    [⟨⟨"lo"⟩, ⟨"lines"⟩, "order_id", 1, some "INT", none, false, none, none, none⟩,
     ⟨⟨"l1"⟩, ⟨"lines"⟩, "line_no", 2, some "INT", none, false, none, none, none⟩], [],
    [⟨⟨"kl"⟩, ⟨"lines"⟩, "pk_lines", .primaryKey, none, none,
      [⟨⟨"kl1"⟩, ⟨"lo"⟩, 1⟩, ⟨⟨"kl2"⟩, ⟨"l1"⟩, 2⟩]⟩],
    [linesByOrder]⟩

def orderLinesSchema : Schema := ⟨⟨"s"⟩, ⟨"db"⟩, "shop", .mysql, none, none, [ordersTable, linesTable]⟩

def orderLines : Database := ⟨⟨"db"⟩, [orderLinesSchema]⟩

theorem Editor.orderLines_guards_key_column :
    orderLines.validate = .ok () ∧ orderLinesSchema ∈ orderLines.schemas ∧
      linesTable ∈ orderLinesSchema.tables ∧ linesByOrder ∈ linesTable.relationships ∧
      linesByOrder.isIdentifying = true ∧
      orderLinesSchema.table? linesByOrder.pkTableId = some ordersTable ∧
      orderIdMapping ∈ linesByOrder.columns ∧ ordersTable.isKeyColumn orderIdMapping.pkColumnId = true ∧
      Editor.GuardsKeyColumn {} { seed := 0 } orderLines orderLinesSchema linesTable linesByOrder
        orderIdMapping := by
  have hv : orderLines.validate = .ok () := by rfl
  have hs : orderLinesSchema ∈ orderLines.schemas := List.mem_singleton_self _
  have ht : linesTable ∈ orderLinesSchema.tables := by simp [orderLinesSchema]
  have hr : linesByOrder ∈ linesTable.relationships := List.mem_singleton_self _
  have hp : orderLinesSchema.table? linesByOrder.pkTableId = some ordersTable := by decide
  have hm : orderIdMapping ∈ linesByOrder.columns := List.mem_singleton_self _
  have hkey : ordersTable.isKeyColumn orderIdMapping.pkColumnId = true := by decide
  exact ⟨hv, hs, ht, hr, rfl, hp, hm, hkey,
    Editor.apply_guards_key_column hv hs ht hr rfl hp hm hkey⟩

end SchemaDesign
