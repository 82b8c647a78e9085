import SchemaDesign.Proofs.Edit.AcceptedTables
import SchemaDesign.Proofs.Edit.Pruning

/-!
# Nullability is a setting

A column is nullable unless a PRIMARY_KEY or NOT_NULL constraint of its table holds it
(`Table.isNullable`). `changeColumnNullable` first checks the column as if it were created anew,
refuses to make a key column nullable and to make a column that a SET NULL relationship maps not
nullable (`Table.NullableChecks`), and then only toggles NOT_NULL constraints: making the column
nullable drops every NOT_NULL constraint that holds it (`Table.dropNotNull`), making it not
nullable adds one, named `nn_<table>_<column>`, when none holds it
(`EditM.changeColumnNullable_run`).

The checks read the column, the table's columns and relationships, and whether the column is a
key column. Toggling NOT_NULL constraints changes none of these, so a second run passes the same
checks and finds nothing left to do (`EditM.run_makeNullable`, `EditM.run_keepNotNull`).

Main statement `Editor.apply_changeColumnNullable_setting`: on an accepted snapshot, the column
ends nullable exactly as asked, the snapshot changes only as said, a second run with the same
setting gives the same snapshot, and making a nullable column not nullable and then nullable again
gives the snapshot back.
-/

namespace SchemaDesign

namespace Database

/-- Changing a table in place by a change that leaves it as it is leaves the snapshot. -/
theorem updateTable_eq_self {db : Database} {sid tid : Id} {f : Table → Table} {t : Table}
    (h : db.FindsTable sid tid t) (hf : f t = t) : db.updateTable sid tid f = db := by
  obtain ⟨s, hs, ht⟩ := h
  have hschema : ({ s with tables := updateFirst (·.id = tid) f s.tables } : Schema) = s := by
    rw [updateFirst_congr_of_find? (g := fun x => x) hf ht, updateFirst_self]
  unfold updateTable
  dsimp only
  rw [updateFirst_congr_of_find? (g := fun x => x) hschema hs, updateFirst_self]

/-- After a change of table `tid` that keeps its id, its schema is found with the same vendor,
and the table is found changed. -/
theorem lookup_updateTable {db : Database} {sid tid : Id} {f : Table → Table} {s : Schema}
    {t : Table} (hs : db.schema? sid = some s) (ht : s.table? tid = some t)
    (hf : ∀ t, t.id = tid → (f t).id = tid) :
    ∃ s', (db.updateTable sid tid f).schema? sid = some s' ∧ s'.vendor = s.vendor ∧
      s'.table? tid = some (f t) := by
  obtain ⟨s', hs', ht'⟩ := (findsTable_updateTable hf).2 ⟨t, ⟨s, hs, ht⟩, rfl⟩
  refine ⟨s', hs', ?_, ht'⟩
  rw [schema?_updateTable hs] at hs'
  obtain rfl := Option.some.inj hs'
  rfl

end Database

theorem Constraint.containsColumn_of_columnIds {k : Constraint} {cid : Id} (h : k.columnIds = [cid]) :
    k.containsColumn cid = true := by
  have hany : k.containsColumn cid = (k.columnIds.any fun x => x = cid) := by
    simp [Constraint.containsColumn, Constraint.columnIds, List.any_map, Function.comp_def]
  simp [hany, h]

/-! ## NOT_NULL constraints of a table -/

namespace Table

/-- The table without the NOT_NULL constraints that hold the column. -/
def dropNotNull (cid : Id) (t : Table) : Table :=
  { t with constraints := t.constraints.filter fun k => !(k.kind = .notNull && k.containsColumn cid) }

variable {t : Table} {cid : Id} {k : Constraint}

theorem isKeyColumn_of_primaryKey? {t' : Table} (h : t'.primaryKey? = t.primaryKey?) (c : Id) :
    t'.isKeyColumn c = t.isKeyColumn c := by
  unfold isKeyColumn
  rw [h]

theorem primaryKey?_dropNotNull (cid : Id) (t : Table) : (t.dropNotNull cid).primaryKey? = t.primaryKey? := by
  unfold primaryKey? dropNotNull
  exact find?_filter_of_imp fun k _ hk => by simp_all

theorem primaryKey?_appendNotNull (hk : k.kind = .notNull) (t : Table) :
    ({ t with constraints := t.constraints ++ [k] } : Table).primaryKey? = t.primaryKey? := by
  unfold primaryKey?
  simp [List.find?_append, hk]

/-- A nullable column is no key column. -/
theorem isKeyColumn_eq_false_of_isNullable (h : t.isNullable cid = true) : t.isKeyColumn cid = false := by
  unfold isKeyColumn
  cases hpk : t.primaryKey? with
  | none => rfl
  | some pk =>
    have hmem := List.mem_of_find?_eq_some hpk
    have hkind : pk.kind = .primaryKey := by simpa using List.find?_some hpk
    unfold isNullable at h
    simp only [Bool.not_eq_true', List.any_eq_false] at h
    simpa [hkind] using h pk hmem

theorem isNullable_eq_false_of_hasNotNull (h : t.hasNotNull cid = true) : t.isNullable cid = false := by
  obtain ⟨k, hk, hnn⟩ := List.any_eq_true.1 h
  unfold isNullable
  simp only [Bool.not_eq_false', List.any_eq_true]
  exact ⟨k, hk, by simp_all⟩

/-- With at most one key, a column that is no key column is nullable once no NOT_NULL constraint
holds it. -/
theorem isNullable_dropNotNull (hone : t.constraints.countP (·.isPrimaryKey) ≤ 1)
    (hkey : t.isKeyColumn cid = false) : (t.dropNotNull cid).isNullable cid = true := by
  unfold isNullable dropNotNull
  simp only [Bool.not_eq_true', List.any_eq_false]
  intro k hk hheld
  obtain ⟨hkmem, hkeep⟩ := List.mem_filter.1 hk
  simp only [Bool.or_eq_true, decide_eq_true_eq, Bool.and_eq_true] at hheld
  obtain ⟨hkind | hkind, hcontains⟩ := hheld
  · -- the only key is the one `isKeyColumn` reads, and it does not hold the column
    obtain ⟨pk, hpk⟩ : ∃ pk, t.primaryKey? = some pk :=
      Option.isSome_iff_exists.1 (List.find?_isSome.2 ⟨k, hkmem, by simpa using hkind⟩)
    have hpkmem := List.mem_of_find?_eq_some hpk
    have hpkkind : pk.kind = .primaryKey := by simpa using List.find?_some hpk
    obtain rfl := eq_of_countP_le_one hone hkmem (by simp [Constraint.isPrimaryKey, hkind]) hpkmem
      (by simp [Constraint.isPrimaryKey, hpkkind])
    simp [isKeyColumn, hpk, hcontains] at hkey
  · simp [hkind, hcontains] at hkeep

theorem hasNotNull_appendNotNull (hk : k.kind = .notNull) (hc : k.containsColumn cid = true) :
    ({ t with constraints := t.constraints ++ [k] } : Table).hasNotNull cid = true := by
  simp [hasNotNull, hk, hc]

theorem dropNotNull_dropNotNull (cid : Id) (t : Table) :
    (t.dropNotNull cid).dropNotNull cid = t.dropNotNull cid := by
  simp only [dropNotNull, List.filter_filter, Bool.and_self]

/-- Dropping the NOT_NULL constraints on a column that no NOT_NULL constraint held before one was
appended gives the table back. -/
theorem dropNotNull_appendNotNull (hnn : t.hasNotNull cid = false) (hk : k.kind = .notNull)
    (hc : k.containsColumn cid = true) :
    ({ t with constraints := t.constraints ++ [k] } : Table).dropNotNull cid = t := by
  have hkeep : t.constraints.filter (fun k => !(k.kind = .notNull && k.containsColumn cid)) =
      t.constraints := by
    refine List.filter_eq_self.2 fun k' hk' => ?_
    have := List.any_eq_false.1 hnn k' hk'
    simpa [imp_iff_not_or] using this
  simp only [dropNotNull, List.filter_append, hkeep]
  simp [hk, hc]

/-! ## What the operation checks -/

/-- What `changeColumnNullable` checks of the column `c` of `t` before it toggles anything: the
checks of a new column (name, type, auto-increment), that a column made nullable is no key column,
and that a column made not nullable is mapped by no SET NULL relationship. -/
structure NullableChecks (config : EditorConfig) (vendor : Vendor) (t : Table) (c : Column)
    (nullable : Bool) : Prop where
  name : checkIdentifier c.name config.naming.column = .ok ()
  notReserved : isReserved c.name = false
  nameFree : (t.columns.any fun c' => c'.name = c.name && !EditM.isExcluded (some c.id) c'.id) = false
  dataType : checkDataType vendor c.dataType c.lengthScale = .ok ()
  autoIncrement : c.isAutoIncrement = true →
    checkAutoIncrement t vendor c.name c.dataType (some c.id) = .ok ()
  notKey : nullable = true → t.isKeyColumn c.id = false
  notSetNull : nullable = false →
    t.relationships.find? (fun r => r.usesSetNull && r.mapsFkColumn c.id) = none

variable {config : EditorConfig} {vendor : Vendor} {c : Column} {b : Bool}

/-- The checks do not read the constraints, except for whether the column is a key column. -/
theorem NullableChecks.withConstraints (h : t.NullableChecks config vendor c b) {ks : List Constraint}
    (hkey : ({ t with constraints := ks } : Table).isKeyColumn c.id = t.isKeyColumn c.id) :
    ({ t with constraints := ks } : Table).NullableChecks config vendor c b where
  name := h.name
  notReserved := h.notReserved
  nameFree := h.nameFree
  dataType := h.dataType
  autoIncrement := h.autoIncrement
  notKey hb := hkey.trans (h.notKey hb)
  notSetNull := h.notSetNull

/-- A column that passed the checks for one setting passes them for making it nullable when it is
no key column. -/
theorem NullableChecks.nullable (h : t.NullableChecks config vendor c b)
    (hkey : t.isKeyColumn c.id = false) : t.NullableChecks config vendor c true where
  name := h.name
  notReserved := h.notReserved
  nameFree := h.nameFree
  dataType := h.dataType
  autoIncrement := h.autoIncrement
  notKey _ := hkey
  notSetNull hb := absurd hb (by decide)

end Table

/-! ## Runs of the steps -/

namespace EditM

variable {st st' : Session} {sid tid cid : Id} {u : Unit} {s : Schema} {t : Table}

theorem run_config (st : Session) : config.run st = .ok st.config st := rfl

theorem run_modifyTable (hs : st.db.schema? sid = some s) (ht : s.table? tid = some t)
    (f : Table → Table) :
    (modifyTable sid tid f).run st = .ok () { st with db := st.db.updateTable sid tid f } := by
  unfold modifyTable modifySchema
  rw [run_bind_of_ok (run_table hs ht), run_bind_of_ok (run_schema hs),
    run_bind_of_ok (run_database st)]
  rfl

theorem ite_check_run {α : Type} {A : Prop} [Decidable A] {r : Except DesignError Unit}
    {x : EditM α} {a : α} (h : (if A then check r >>= fun _ => x else x).run st = .ok a st') :
    (A → r = .ok ()) ∧ x.run st = .ok a st' := by
  split at h
  · obtain ⟨_, st₁, h₁, k₁⟩ := run_bind_ok h
    obtain ⟨rfl, hr⟩ := check_run h₁
    exact ⟨fun _ => hr, k₁⟩
  · exact ⟨fun hA => absurd hA ‹_›, h⟩

theorem checkColumnName_run {name : String} {exclude : Option Id}
    (h : (checkColumnName sid tid name exclude).run st = .ok u st') :
    st' = st ∧ checkIdentifier name st.config.naming.column = .ok () ∧ isReserved name = false ∧
      ∀ t, st.db.FindsTable sid tid t →
        (t.columns.any fun c => c.name = name && !isExcluded exclude c.id) = false := by
  unfold checkColumnName at h
  obtain ⟨cfg, st₁, h₁, k₁⟩ := run_bind_ok h
  obtain ⟨rfl, rfl⟩ := config_run h₁
  cases hid : checkIdentifier name st₁.config.naming.column with
  | error rule => simp [hid] at k₁
  | ok =>
  cases hres : isReserved name with
  | true => simp [hid, hres] at k₁
  | false =>
  simp only [hid, hres, Bool.false_eq_true, ↓reduceIte] at k₁
  obtain ⟨t, st₂, h₂, k₂⟩ := run_bind_ok k₁
  obtain ⟨rfl, s, hs, ht⟩ := table_run h₂
  split at k₂
  · cases k₂
  next hfree =>
    obtain ⟨-, rfl⟩ := pure_run k₂
    refine ⟨rfl, rfl, rfl, fun t' ht' => ?_⟩
    obtain rfl := ht'.unique ⟨s, hs, ht⟩
    simpa using hfree

theorem run_checkColumnName {name : String} {exclude : Option Id} (hs : st.db.schema? sid = some s)
    (ht : s.table? tid = some t) (hname : checkIdentifier name st.config.naming.column = .ok ())
    (hres : isReserved name = false)
    (hfree : (t.columns.any fun c => c.name = name && !isExcluded exclude c.id) = false) :
    (checkColumnName sid tid name exclude).run st = .ok () st := by
  unfold checkColumnName
  rw [run_bind_of_ok (run_config st)]
  simp only [hname, hres, Bool.false_eq_true, ↓reduceIte]
  rw [run_bind_of_ok (run_table hs ht)]
  simp only [hfree, Bool.false_eq_true, ↓reduceIte]
  rfl

theorem ensureNotSetNullTarget_run (h : (ensureNotSetNullTarget sid tid cid).run st = .ok u st') :
    st' = st ∧ ∀ t, st.db.FindsTable sid tid t →
      t.relationships.find? (fun r => r.usesSetNull && r.mapsFkColumn cid) = none := by
  unfold ensureNotSetNullTarget at h
  obtain ⟨t, st₁, h₁, k₁⟩ := run_bind_ok h
  obtain ⟨rfl, s, hs, ht⟩ := table_run h₁
  split at k₁
  · cases k₁
  next hnone =>
    obtain ⟨-, rfl⟩ := pure_run k₁
    exact ⟨rfl, fun t' ht' => ht'.unique ⟨s, hs, ht⟩ ▸ hnone⟩

theorem run_ensureNotSetNullTarget (hs : st.db.schema? sid = some s) (ht : s.table? tid = some t)
    (hnone : t.relationships.find? (fun r => r.usesSetNull && r.mapsFkColumn cid) = none) :
    (ensureNotSetNullTarget sid tid cid).run st = .ok () st := by
  unfold ensureNotSetNullTarget
  rw [run_bind_of_ok (run_table hs ht)]
  simp only [hnone]
  rfl

/-- `addNotNull` appends one NOT_NULL constraint on the column to the table. -/
theorem addNotNull_run {tableName columnName : String}
    (h : (addNotNull sid tid cid tableName columnName).run st = .ok u st') :
    ∃ k : Constraint, k.kind = .notNull ∧ k.tableId = tid ∧ k.columnIds = [cid] ∧
      st'.db = st.db.updateTable sid tid fun t => { t with constraints := t.constraints ++ [k] } := by
  unfold addNotNull at h
  obtain ⟨name, st₁, h₁, k₁⟩ := run_bind_ok h
  obtain ⟨k, st₂, h₂, k₂⟩ := run_bind_ok k₁
  obtain ⟨hdb₁, -⟩ := reads_freshConstraintName sid _ _ _ _ h₁
  obtain ⟨hdb₂, id, eid, rfl⟩ := reads_notNullConstraint_shape tid cid name _ _ _ h₂
  refine ⟨⟨id, tid, name, .notNull, none, none, [⟨eid, cid, 1⟩]⟩, rfl, rfl, rfl, ?_⟩
  rw [(modifyTable_run k₂).1, hdb₂, hdb₁]

/-- A successful `changeColumnNullable` passed the checks of `Table.NullableChecks`, and then
dropped the NOT_NULL constraints on the column, left the snapshot as it was, or appended one
NOT_NULL constraint on the column. -/
theorem changeColumnNullable_run {b : Bool}
    (h : (changeColumnNullable sid tid cid b).run st = .ok u st') :
    ∃ s t c, st.db.schema? sid = some s ∧ s.table? tid = some t ∧ t.column? cid = some c ∧
      t.NullableChecks st.config s.vendor c b ∧
      (b = true → st'.db = st.db.updateTable sid tid (Table.dropNotNull cid)) ∧
      (b = false → t.hasNotNull cid = true ∧ st'.db = st.db ∨
        t.hasNotNull cid = false ∧ ∃ k : Constraint, k.kind = .notNull ∧ k.tableId = tid ∧
          k.columnIds = [cid] ∧
          st'.db = st.db.updateTable sid tid fun u => { u with constraints := u.constraints ++ [k] }) := by
  unfold changeColumnNullable at h
  dsimp only at h
  obtain ⟨s, st₁, h₁, k₁⟩ := run_bind_ok h
  obtain ⟨hst₁, hs⟩ := schema_run h₁
  subst st₁
  obtain ⟨c, st₂, h₂, k₂⟩ := run_bind_ok k₁
  obtain ⟨hst₂, s', t, hs', ht, hc⟩ := column_run h₂
  subst st₂
  obtain rfl : s = s' := Option.some.inj (hs.symm.trans hs')
  have hcid : c.id = cid := by simpa using List.find?_some hc
  obtain ⟨_, st₃, h₃, k₃⟩ := run_bind_ok k₂
  obtain ⟨hst₃, hname, hres, hfree⟩ := checkColumnName_run h₃
  subst st₃
  obtain ⟨_, st₄, h₄, k₄⟩ := run_bind_ok k₃
  obtain ⟨hst₄, htype⟩ := check_run h₄
  subst st₄
  obtain ⟨t', st₅, h₅, k₅⟩ := run_bind_ok k₄
  obtain ⟨hst₅, s'', hs'', ht'⟩ := table_run h₅
  subst st₅
  obtain rfl : s = s'' := Option.some.inj (hs.symm.trans hs'')
  obtain rfl : t = t' := Option.some.inj (ht.symm.trans ht')
  obtain ⟨hai, k₆⟩ := ite_check_run k₅
  subst hcid
  have hchecks (hkey : b = true → t.isKeyColumn c.id = false)
      (hnone : b = false → t.relationships.find? (fun r => r.usesSetNull && r.mapsFkColumn c.id) = none) :
      t.NullableChecks st.config s.vendor c b :=
    ⟨hname, hres, hfree t ⟨s, hs, ht⟩, htype, hai, hkey, hnone⟩
  cases b with
  | true =>
    simp only [↓reduceIte] at k₆
    split at k₆
    · rw [run_bind_of_error (run_throw _ _)] at k₆
      cases k₆
    next hkey =>
      exact ⟨s, t, c, hs, ht, hc, hchecks (fun _ => by simpa using hkey) nofun,
        fun _ => (modifyTable_run k₆).1, nofun⟩
  | false =>
    simp only [Bool.false_eq_true, ↓reduceIte] at k₆
    obtain ⟨_, st₆, h₆, k₇⟩ := run_bind_ok k₆
    obtain ⟨hst₆, hnone⟩ := ensureNotSetNullTarget_run h₆
    subst st₆
    refine ⟨s, t, c, hs, ht, hc, hchecks nofun fun _ => hnone t ⟨s, hs, ht⟩, nofun, fun _ => ?_⟩
    cases hnn : t.hasNotNull c.id with
    | true =>
      simp only [hnn, Bool.not_true, Bool.false_eq_true, ↓reduceIte] at k₇
      exact .inl ⟨rfl, (pure_run k₇).2 ▸ rfl⟩
    | false =>
      simp only [hnn, Bool.not_false, ↓reduceIte] at k₇
      exact .inr ⟨rfl, addNotNull_run k₇⟩

theorem run_ite_check {α : Type} {A : Prop} [Decidable A] {r : Except DesignError Unit}
    (x : EditM α) (h : A → r = .ok ()) (st : Session) :
    (if A then check r >>= fun _ => x else x).run st = x.run st := by
  split
  · next hA => rw [run_bind_of_ok (run_check (h hA) st)]
  · rfl

/-- A column that passes the checks is made nullable: the NOT_NULL constraints on it are dropped,
and nothing else of the session changes. -/
theorem run_makeNullable {c : Column} (hs : st.db.schema? sid = some s) (ht : s.table? tid = some t)
    (hc : t.column? c.id = some c) (hchk : t.NullableChecks st.config s.vendor c true) :
    (changeColumnNullable sid tid c.id true).run st =
      .ok () { st with db := st.db.updateTable sid tid (Table.dropNotNull c.id) } := by
  unfold changeColumnNullable
  dsimp only
  rw [run_bind_of_ok (run_schema hs), run_bind_of_ok (run_column hs ht hc),
    run_bind_of_ok (run_checkColumnName hs ht hchk.name hchk.notReserved hchk.nameFree),
    run_bind_of_ok (run_check hchk.dataType st), run_bind_of_ok (run_table hs ht),
    run_ite_check _ hchk.autoIncrement]
  simp only [↓reduceIte, hchk.notKey rfl, Bool.false_eq_true]
  exact run_modifyTable hs ht _

/-- A column that passes the checks and is held by a NOT_NULL constraint stays as it is when made
not nullable. -/
theorem run_keepNotNull {c : Column} (hs : st.db.schema? sid = some s) (ht : s.table? tid = some t)
    (hc : t.column? c.id = some c) (hchk : t.NullableChecks st.config s.vendor c false)
    (hnn : t.hasNotNull c.id = true) :
    (changeColumnNullable sid tid c.id false).run st = .ok () st := by
  unfold changeColumnNullable
  dsimp only
  rw [run_bind_of_ok (run_schema hs), run_bind_of_ok (run_column hs ht hc),
    run_bind_of_ok (run_checkColumnName hs ht hchk.name hchk.notReserved hchk.nameFree),
    run_bind_of_ok (run_check hchk.dataType st), run_bind_of_ok (run_table hs ht),
    run_ite_check _ hchk.autoIncrement]
  simp only [Bool.false_eq_true, ↓reduceIte]
  rw [run_bind_of_ok (run_ensureNotSetNullTarget hs ht (hchk.notSetNull rfl))]
  simp only [hnn, Bool.not_true, Bool.false_eq_true, ↓reduceIte]
  rfl

end EditM

/-! ## The operation on a snapshot -/

theorem Editor.apply_result_of_ok {config : EditorConfig} {supply : IdSupply} {db : Database}
    {op : Operation} {st : Session} (h : op.run.run { db, config, supply } = .ok () st) :
    (Editor.apply config supply db op).result = .ok st.db := by
  unfold Editor.apply
  rw [h]

section Apply

variable {config : EditorConfig} {supply : IdSupply} {db : Database} {sid tid : Id} {s : Schema}
  {t : Table} {c : Column}

theorem Editor.apply_makeNullable (hs : db.schema? sid = some s) (ht : s.table? tid = some t)
    (hc : t.column? c.id = some c) (hchk : t.NullableChecks config s.vendor c true) :
    (Editor.apply config supply db (.changeColumnNullable sid tid c.id true)).result =
      .ok (db.updateTable sid tid (Table.dropNotNull c.id)) :=
  Editor.apply_result_of_ok (show (Operation.changeColumnNullable sid tid c.id true).run.run
    { db, config, supply } = _ from EditM.run_makeNullable hs ht hc hchk)

theorem Editor.apply_keepNotNull (hs : db.schema? sid = some s) (ht : s.table? tid = some t)
    (hc : t.column? c.id = some c) (hchk : t.NullableChecks config s.vendor c false)
    (hnn : t.hasNotNull c.id = true) :
    (Editor.apply config supply db (.changeColumnNullable sid tid c.id false)).result = .ok db :=
  Editor.apply_result_of_ok (show (Operation.changeColumnNullable sid tid c.id false).run.run
    { db, config, supply } = _ from EditM.run_keepNotNull hs ht hc hchk hnn)

/-- **Nullability is a setting.** A successful `changeColumnNullable` leaves the column nullable
exactly as asked, touching only its NOT_NULL constraints; run again it changes nothing, and a
column made not nullable is made nullable again by a run that gives the snapshot back. -/
theorem Editor.apply_changeColumnNullable_setting {db' : Database} (hv : db.validate = .ok ())
    (hs : s ∈ db.schemas) (ht : t ∈ s.tables) (hc : c ∈ t.columns) (b : Bool)
    (happ : (Editor.apply config supply db (.changeColumnNullable s.id t.id c.id b)).result =
      .ok db') :
    (∃ t', db'.FindsTable s.id t.id t' ∧ t'.isNullable c.id = b) ∧
    (b = true → db' = db.updateTable s.id t.id (Table.dropNotNull c.id)) ∧
    (b = false → db' = db ∨ ∃ k : Constraint, k.kind = .notNull ∧ k.tableId = t.id ∧
      k.columnIds = [c.id] ∧
      db' = db.updateTable s.id t.id fun u => { u with constraints := u.constraints ++ [k] }) ∧
    (∀ supply', (Editor.apply config supply' db' (.changeColumnNullable s.id t.id c.id b)).result =
      .ok db') ∧
    (b = false → t.isNullable c.id = true → ∀ supply',
      (Editor.apply config supply' db' (.changeColumnNullable s.id t.id c.id true)).result = .ok db) := by
  have hn := Database.labelledIds_nodup_of_validate hv
  have hs₀ := Database.schema?_of_mem hn hs
  have ht₀ := Schema.table?_of_mem (Database.tableIds_nodup hn hs) ht
  have hc₀ := Database.column?_of_mem hn hs ht hc
  have hone := (Table.constraintKeys_of_validateParts
    (Schema.validateParts_of_validate (Database.schemas_validate hv s hs) t ht)).2
  unfold Editor.apply at happ
  split at happ
  next st hrun =>
    cases happ
    obtain ⟨s₁, t₁, c₁, hs₁, ht₁, hc₁, hchk, hmake, hkeep⟩ := EditM.changeColumnNullable_run hrun
    dsimp only at hs₁ hchk hmake hkeep
    obtain rfl : s = s₁ := Option.some.inj (hs₀.symm.trans hs₁)
    obtain rfl : t = t₁ := Option.some.inj (ht₀.symm.trans ht₁)
    obtain rfl : c = c₁ := Option.some.inj (hc₀.symm.trans hc₁)
    cases b with
    | true =>
      rw [hmake rfl]
      obtain ⟨s', hs', hvendor, ht'⟩ :=
        Database.lookup_updateTable (f := Table.dropNotNull c.id) hs₀ ht₀ fun _ h => h
      have hchk' : (t.dropNotNull c.id).NullableChecks config s'.vendor c true := by
        rw [hvendor]
        exact hchk.withConstraints (Table.isKeyColumn_of_primaryKey? (Table.primaryKey?_dropNotNull _ _) _)
      refine ⟨⟨_, ⟨s', hs', ht'⟩, Table.isNullable_dropNotNull hone (hchk.notKey rfl)⟩, fun _ => rfl, nofun, fun supply' => ?_,
        nofun⟩
      -- a second run drops nothing more
      rw [Editor.apply_makeNullable hs' ht' hc₀ hchk',
        Database.updateTable_updateTable (f := Table.dropNotNull c.id) fun _ => rfl]
      simp only [Table.dropNotNull_dropNotNull]
    | false =>
      rcases hkeep rfl with ⟨hnn, hdb⟩ | ⟨hnn, k, hk, hktid, hkcols, hdb⟩
      · rw [hdb]
        refine ⟨⟨t, ⟨s, hs₀, ht₀⟩, Table.isNullable_eq_false_of_hasNotNull hnn⟩, nofun, fun _ => .inl rfl,
          fun _ => Editor.apply_keepNotNull hs₀ ht₀ hc₀ hchk hnn, fun _ hnull => ?_⟩
        simp [Table.isNullable_eq_false_of_hasNotNull hnn] at hnull
      · rw [hdb]
        have hcont := Constraint.containsColumn_of_columnIds hkcols
        have hkey := Table.isKeyColumn_of_primaryKey? (Table.primaryKey?_appendNotNull hk t) c.id
        obtain ⟨s', hs', hvendor, ht'⟩ := Database.lookup_updateTable
          (f := fun u => { u with constraints := u.constraints ++ [k] }) hs₀ ht₀ fun _ h => h
        have hchk' : ({ t with constraints := t.constraints ++ [k] } : Table).NullableChecks config
            s'.vendor c false := by
          rw [hvendor]
          exact hchk.withConstraints hkey
        refine ⟨⟨_, ⟨s', hs', ht'⟩, Table.isNullable_eq_false_of_hasNotNull (Table.hasNotNull_appendNotNull hk hcont)⟩, nofun,
          fun _ => .inr ⟨k, hk, hktid, hkcols, rfl⟩,
          fun _ => Editor.apply_keepNotNull hs' ht' hc₀ hchk' (Table.hasNotNull_appendNotNull hk hcont),
          fun _ hnull supply' => ?_⟩
        -- making the column nullable again drops exactly the constraint appended
        have hchk'' := hchk'.nullable (hkey.trans (Table.isKeyColumn_eq_false_of_isNullable hnull))
        rw [Editor.apply_makeNullable hs' ht' hc₀ hchk'',
          Database.updateTable_updateTable (f := fun u => { u with constraints := u.constraints ++ [k] })
            fun _ => rfl]
        exact congrArg Except.ok
          (Database.updateTable_eq_self ⟨s, hs₀, ht₀⟩ (Table.dropNotNull_appendNotNull hnn hk hcont))
  next => cases happ

end Apply

set_option maxRecDepth 100000 in
/-- The nullable column `qty` of `lines` made not nullable, then nullable again: the snapshot
comes back. -/
theorem Editor.qty_nullable_round_trip :
    ordersAndLines.validate = .ok () ∧
    ∃ s ∈ ordersAndLines.schemas, ∃ t ∈ s.tables, ∃ c ∈ t.columns, t.isNullable c.id = true ∧
      ∃ db', (Editor.apply {} { seed := 0 } ordersAndLines
          (.changeColumnNullable s.id t.id c.id false)).result = .ok db' ∧
        (Editor.apply {} { seed := 0 } db' (.changeColumnNullable s.id t.id c.id true)).result =
          .ok ordersAndLines := by
  have hv : ordersAndLines.validate = .ok () := by rfl
  have hs : _ ∈ ordersAndLines.schemas := List.mem_singleton_self _
  refine ⟨hv, _, hs, _, List.mem_cons_of_mem _ (List.mem_singleton_self _), _,
    List.mem_singleton_self _, rfl, ?_⟩
  obtain ⟨db', happ⟩ : ∃ db', (Editor.apply {} { seed := 0 } ordersAndLines
      (.changeColumnNullable ⟨"s"⟩ ⟨"lines"⟩ ⟨"l1"⟩ false)).result = .ok db' := ⟨_, rfl⟩
  exact ⟨db', happ, (Editor.apply_changeColumnNullable_setting hv hs
    (List.mem_cons_of_mem _ (List.mem_singleton_self _)) (List.mem_singleton_self _) false
    happ).2.2.2.2 rfl rfl _⟩

end SchemaDesign
