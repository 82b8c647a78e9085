import SchemaDesign.Proofs.Edit.ColumnRoundTrip

/-!
# Holder columns

`attachForeignKey` maps a provider column into a relationship of the holder. What a successful
run does to the snapshot depends on the holder alone, and `Table.attachKey` computes it: when the
holder lacks the holder column, the column is appended, mirroring the provider column and named
as the spec says or `<provider>_<column>` made unique among the holder's column names, and the
columns are renumbered; then the mapping is appended to the relationship, numbered next.

- `EditM.attachForeignKey_run`: every successful run changes the holder by `Table.attachKey`,
  after checking that the provider column and the relationship exist and that a new holder
  column's id is used nowhere; the settings are left as they are.
- `EditM.freshSpec_run`: a propagated mapping maps the key column given onto a holder column
  that the snapshot mentions nowhere, to be named by the holder.
- `EditM.addToPrimaryKey_keys`: after `addToPrimaryKey`, the key columns are those of before and
  the columns given, and no others.
-/

namespace SchemaDesign

/-- The relationship with a mapping appended by `spec`, numbered next. -/
def Relationship.appendMapping (spec : FkSpec) (r : Relationship) : Relationship :=
  { r with columns := r.columns ++
      [⟨spec.mappingId, spec.fkColumnId, spec.pkColumnId, r.columns.length + 1⟩] }

/-- The holder `t` after mapping the provider column `source` into its relationship `rid` by
`spec`, for a provider named `providerName` and generated names of at most `max` characters. -/
def Table.attachKey (max : Nat) (providerName : String) (source : Column) (rid : Id)
    (spec : FkSpec) (t : Table) : Table :=
  let t := if (t.column? spec.fkColumnId).isNone then
      ({ t with columns := t.columns ++ [mirrorColumn source spec.fkColumnId t.id
          (spec.fkColumnName.getD (uniqueName (sanitize providerName ++ "_" ++ sanitize source.name)
            max t.columnNames))] } : Table).resequenceColumns
    else t
  { t with relationships := updateFirst (·.id = rid) (Relationship.appendMapping spec) t.relationships }

namespace Table

variable {max : Nat} {name : String} {source : Column} {rid : Id} {spec : FkSpec} {t : Table}

/-- The key columns are read off the constraints alone. -/
theorem isKeyColumn_congr {t' : Table} (h : t'.constraints = t.constraints) (c : Id) :
    t'.isKeyColumn c = t.isKeyColumn c := by
  simp only [isKeyColumn, primaryKey?, h]

@[simp]
theorem attachKey_id : (t.attachKey max name source rid spec).id = t.id := by
  unfold attachKey
  split <;> rfl

@[simp]
theorem attachKey_constraints :
    (t.attachKey max name source rid spec).constraints = t.constraints := by
  unfold attachKey
  split <;> rfl

@[simp]
theorem attachKey_relationships :
    (t.attachKey max name source rid spec).relationships =
      updateFirst (·.id = rid) (Relationship.appendMapping spec) t.relationships := by
  unfold attachKey
  split <;> rfl

theorem attachKey_isKeyColumn (c : Id) :
    (t.attachKey max name source rid spec).isKeyColumn c = t.isKeyColumn c :=
  isKeyColumn_congr attachKey_constraints c

theorem attachKey_columns_of_isSome (h : (t.column? spec.fkColumnId).isSome) :
    (t.attachKey max name source rid spec).columns = t.columns := by
  unfold attachKey
  rw [if_neg (by rw [Option.isNone_iff_eq_none]; exact Option.ne_none_iff_isSome.2 h)]

theorem attachKey_columns_of_none (h : t.column? spec.fkColumnId = none) :
    (t.attachKey max name source rid spec).columns =
      renumber (fun c n => { c with ordinalPosition := n }) (t.columns ++
        [mirrorColumn source spec.fkColumnId t.id (spec.fkColumnName.getD
          (uniqueName (sanitize name ++ "_" ++ sanitize source.name) max t.columnNames))]) := by
  unfold attachKey
  rw [if_pos (by simp [h])]
  rfl

/-- The holder column ids: a missing holder column is appended after the others. -/
theorem attachKey_columnIds :
    (t.attachKey max name source rid spec).columns.map (·.id) =
      t.columns.map (·.id) ++ if (t.column? spec.fkColumnId).isNone then [spec.fkColumnId] else [] := by
  cases h : t.column? spec.fkColumnId with
  | none =>
    rw [attachKey_columns_of_none h, map_renumber fun (c : Column) (n : Nat) =>
      show ({ c with ordinalPosition := n } : Column).id = c.id from rfl]
    simp [mirrorColumn]
  | some c => simp [attachKey_columns_of_isSome (by simp [h] : (t.column? spec.fkColumnId).isSome)]

theorem column?_eq_none {c : Id} (h : c ∉ t.mentionedIds) : t.column? c = none := by
  cases hf : t.column? c with
  | none => rfl
  | some col =>
    have hid : col.id = c := by simpa using List.find?_some hf
    exact absurd (hid ▸ mentions_column (List.mem_of_find?_eq_some hf)) h

theorem mentions_keyColumn {c : Id} (h : t.isKeyColumn c = true) : c ∈ t.mentionedIds := by
  unfold isKeyColumn at h
  split at h
  next pk hpk =>
    simp only [Constraint.containsColumn, List.any_eq_true, decide_eq_true_eq] at h
    obtain ⟨e, he, rfl⟩ := h
    exact mentions_constraintEntry (List.mem_of_find?_eq_some hpk) he
  next => cases h

end Table

namespace Database

/-- Two changes that agree on the table found change the snapshot alike. -/
theorem updateTable_congr {db : Database} {sid tid : Id} {t : Table} (ht : db.FindsTable sid tid t)
    {f g : Table → Table} (h : f t = g t) : db.updateTable sid tid f = db.updateTable sid tid g := by
  obtain ⟨s, hs, ht⟩ := ht
  have hschema : ({ s with tables := updateFirst (·.id = tid) f s.tables } : Schema) =
      { s with tables := updateFirst (·.id = tid) g s.tables } := by
    rw [updateFirst_congr_of_find? h ht]
  unfold updateTable
  dsimp only
  rw [updateFirst_congr_of_find?
    (g := fun s => { s with tables := updateFirst (·.id = tid) g s.tables }) hschema hs]

theorem FindsTable.of_updateTable {db : Database} {sid tid : Id} {f : Table → Table} {t' : Table}
    (h : (db.updateTable sid tid f).FindsTable sid tid t') (hf : ∀ t, (f t).id = t.id) :
    ∃ t, db.FindsTable sid tid t ∧ t' = f t :=
  (findsTable_updateTable fun t ht => (hf t).trans ht).1 h

end Database

namespace EditM

variable {st st' : Session}

theorem setDatabase_eq {db : Database} {u : Unit} (h : (setDatabase db).run st = .ok u st') :
    st' = { st with db } := by
  have hrun : (setDatabase db).run st = .ok () { st with db } := rfl
  rw [hrun] at h
  cases h
  rfl

/-- Changing a table leaves the settings as they are. -/
theorem modifyTable_config {sid tid : Id} {f : Table → Table} {u : Unit}
    (h : (modifyTable sid tid f).run st = .ok u st') : st'.config = st.config := by
  obtain ⟨t, st₁, h₁, h₂⟩ := run_bind_ok h
  obtain ⟨rfl, -⟩ := table_run h₁
  obtain ⟨s, st₂, h₃, h₄⟩ := run_bind_ok h₂
  obtain ⟨rfl, -⟩ := schema_run h₃
  obtain ⟨db, st₃, h₅, h₆⟩ := run_bind_ok h₄
  obtain ⟨rfl, -⟩ := database_run h₅
  rw [setDatabase_eq h₆]

/-- Minting leaves the settings as they are. -/
theorem mint_config {i : Id} (h : mint.run st = .ok i st') : st'.config = st.config := by
  unfold mint at h
  obtain ⟨st₀, st₁, h₁, h₂⟩ := run_bind_ok h
  have hget : (get : EditM Session).run st = .ok st st := rfl
  rw [hget, EStateM.Result.ok.injEq] at h₁
  obtain ⟨rfl, rfl⟩ := h₁
  dsimp only at h₂
  cases hm : st.supply.mintUnused st.db.mentionedIds (st.db.mentionedIds.length + 1) with
  | none =>
    rw [hm] at h₂
    cases h₂
  | some found =>
    obtain ⟨i', supply⟩ := found
    rw [hm] at h₂
    obtain ⟨_, st₂, h₃, h₄⟩ := run_bind_ok h₂
    obtain ⟨-, rfl⟩ := pure_run h₄
    have hset : (set { st with supply } : EditM Unit).run st = .ok () { st with supply } := rfl
    rw [hset] at h₃
    cases h₃
    rfl

/-- A propagated mapping: it maps the key column given onto a holder column the snapshot
mentions nowhere, with no name given. -/
theorem freshSpec_run {pk : Id} {spec : FkSpec} (h : (freshSpec pk).run st = .ok spec st') :
    st'.db = st.db ∧ st'.config = st.config ∧ spec.pkColumnId = pk ∧ spec.fkColumnName = none ∧
      spec.fkColumnId ∉ st.db.mentionedIds := by
  unfold freshSpec at h
  obtain ⟨mid, st₁, h₁, h₂⟩ := run_bind_ok h
  obtain ⟨fk, st₂, h₃, h₄⟩ := run_bind_ok h₂
  obtain ⟨rfl, rfl⟩ := pure_run h₄
  obtain ⟨hdb₂, hfresh⟩ := reads_mint _ _ _ h₃
  have hdb₁ := mint_run h₁
  refine ⟨hdb₂.trans hdb₁, (mint_config h₃).trans (mint_config h₁), rfl, rfl, ?_⟩
  rwa [← hdb₁]

/-- The mapping half of `attachForeignKey`: the relationship is found in the holder, and the
mapping is appended to it. -/
theorem attachMapping_run {sid hid rid : Id} {spec : FkSpec} {fk : Id}
    (h : (do
      ensureFreshId "relationship column" spec.mappingId
      let holder ← table sid hid
      if (holder.relationship? rid).isNone then throw (.relationshipNotExist rid)
      modifyTable sid hid fun t =>
        { t with relationships := updateFirst (·.id = rid) (fun r => { r with columns := r.columns ++
          [⟨spec.mappingId, spec.fkColumnId, spec.pkColumnId, r.columns.length + 1⟩] }) t.relationships }
      return spec.fkColumnId : EditM Id).run st = .ok fk st') :
    fk = spec.fkColumnId ∧ st'.config = st.config ∧ ∃ H, st.db.FindsTable sid hid H ∧
      (H.relationship? rid).isSome ∧ st'.db = st.db.updateTable sid hid fun t =>
        { t with relationships := updateFirst (·.id = rid) (Relationship.appendMapping spec) t.relationships } := by
  obtain ⟨_, st₁, h₁, h₂⟩ := run_bind_ok h
  obtain ⟨rfl, -⟩ := ensureFreshId_run h₁
  obtain ⟨H, st₂, h₃, h₄⟩ := run_bind_ok h₂
  obtain ⟨rfl, hH⟩ := table_run h₃
  split at h₄
  · obtain ⟨_, _, h₅, -⟩ := run_bind_ok h₄
    cases h₅
  next hsome =>
  obtain ⟨_, st₃, h₅, h₆⟩ := run_bind_ok h₄
  obtain ⟨rfl, rfl⟩ := pure_run h₆
  refine ⟨rfl, modifyTable_config h₅, H, hH, Option.isSome_iff_ne_none.2 (by simpa using hsome),
    (modifyTable_run h₅).1⟩

/-- What a successful `attachForeignKey` does: the provider and its column exist, the holder has
the relationship, a new holder column's id is used nowhere, and the holder changes by
`Table.attachKey`; it gives the holder column and leaves the settings as they are. -/
theorem attachForeignKey_run {sid hid rid pid : Id} {spec : FkSpec} {fk : Id}
    (h : (attachForeignKey sid hid rid pid spec).run st = .ok fk st') :
    fk = spec.fkColumnId ∧ st'.config = st.config ∧
      ∃ P source H, st.db.FindsTable sid pid P ∧ P.column? spec.pkColumnId = some source ∧
        st.db.FindsTable sid hid H ∧ (H.relationship? rid).isSome ∧
        ((H.column? spec.fkColumnId).isNone → st.db.usesId spec.fkColumnId = false) ∧
        st'.db = st.db.updateTable sid hid
          (Table.attachKey st.config.naming.column.max P.name source rid spec) := by
  unfold attachForeignKey at h
  obtain ⟨P, st₁, h₁, h₂⟩ := run_bind_ok h
  obtain ⟨hst₁, hP⟩ := table_run h₁
  subst st₁
  split at h₂
  rotate_left
  · cases h₂
  rename_i source hsource
  obtain ⟨H, st₂, h₃, h₄⟩ := run_bind_ok h₂
  obtain ⟨hst₂, hH⟩ := table_run h₃
  subst st₂
  have hHid : H.id = hid := Database.FindsTable.id_eq hH
  dsimp only at h₄
  split at h₄
  next hmissing =>
    obtain ⟨_, st₃, h₅, h₆⟩ := run_bind_ok h₄
    obtain ⟨hst₃, hfresh⟩ := ensureFreshId_run h₅
    subst st₃
    -- the holder column is named as given or generated, then appended
    split at h₆
    case' h_1 n hn =>
      obtain ⟨_, st₄, h₇, h₈⟩ := run_bind_ok h₆
      obtain ⟨hst₄, -⟩ := checkColumnName_run h₇
      subst st₄
      obtain ⟨name, st₅, h₉, h₁₀⟩ := run_bind_ok h₈
      obtain ⟨hnm, hst₅⟩ := pure_run h₉
      subst st₅
      have hname : name = spec.fkColumnName.getD (uniqueName
          (sanitize P.name ++ "_" ++ sanitize source.name) st.config.naming.column.max H.columnNames) := by
        rw [← hnm, hn]
        rfl
    case' h_2 hn =>
      obtain ⟨cfg, st₄, h₇, h₈⟩ := run_bind_ok h₆
      obtain ⟨hst₄, hcfg⟩ := config_run h₇
      subst st₄
      obtain ⟨name, st₅, h₉, h₁₀⟩ := run_bind_ok h₈
      obtain ⟨hnm, hst₅⟩ := pure_run h₉
      subst st₅
      have hname : name = spec.fkColumnName.getD (uniqueName
          (sanitize P.name ++ "_" ++ sanitize source.name) st.config.naming.column.max H.columnNames) := by
        rw [← hnm, hn, hcfg]
        rfl
    all_goals
      obtain ⟨_, st₆, h₁₁, h₁₂⟩ := run_bind_ok h₁₀
      obtain ⟨hdb₆, -⟩ := modifyTable_run h₁₁
      obtain ⟨rfl, hcfg₆, H', hH', hrel, hdb'⟩ := attachMapping_run h₁₂
      -- the holder found after the column is appended is the holder with the column
      rw [hdb₆] at hH'
      obtain ⟨H₀, hH₀, rfl⟩ := hH'.of_updateTable fun _ => rfl
      obtain rfl := hH₀.unique hH
      refine ⟨rfl, hcfg₆.trans (modifyTable_config h₁₁), P, source, H₀, hP, hsource, hH₀, hrel,
        fun _ => hfresh, ?_⟩
      rw [hdb', hdb₆, Database.updateTable_updateTable ?hid]
      case hid => exact fun _ => rfl
      refine Database.updateTable_congr hH₀ ?_
      unfold Table.attachKey
      rw [if_pos hmissing, ← hname, hHid]
  next hpresent =>
    obtain ⟨rfl, hcfg, H', hH', hrel, hdb'⟩ := attachMapping_run h₄
    obtain rfl := hH'.unique hH
    refine ⟨rfl, hcfg, P, source, H', hP, hsource, hH', hrel, fun h => absurd h hpresent, ?_⟩
    rw [hdb']
    refine Database.updateTable_congr hH' ?_
    unfold Table.attachKey
    rw [if_neg hpresent]

/-! ### Keys -/

/-- One column appended to a key: it holds the columns it held and that one, and no others. -/
theorem appendKeyColumn_contains {pk pk' : Constraint} {c : Id}
    (h : (appendKeyColumn pk c).run st = .ok pk' st') (x : Id) :
    pk'.containsColumn x = true ↔ pk.containsColumn x = true ∨ x = c := by
  unfold appendKeyColumn at h
  split at h
  next hc =>
    obtain ⟨rfl, rfl⟩ := pure_run h
    constructor
    · exact .inl
    · rintro (hx | rfl)
      · exact hx
      · exact hc
  next =>
    obtain ⟨id, st₁, -, h₂⟩ := run_bind_ok h
    obtain ⟨rfl, rfl⟩ := pure_run h₂
    simp [Constraint.containsColumn, @eq_comm _ c x]

/-- Columns appended to a key one by one: the key holds the columns it held and those appended,
and no others. -/
theorem foldlM_appendKeyColumn_contains :
    ∀ (cs : List Id) (pk pk' : Constraint) (st st' : Session),
      (cs.foldlM appendKeyColumn pk).run st = .ok pk' st' →
      ∀ x, pk'.containsColumn x = true ↔ pk.containsColumn x = true ∨ x ∈ cs
  | [], pk, pk', st, st', h => by
    obtain ⟨rfl, rfl⟩ := pure_run h
    simp
  | c :: cs, pk, pk', st, st', h => by
    rw [List.foldlM_cons] at h
    obtain ⟨pk₁, st₁, h₁, h₂⟩ := run_bind_ok h
    intro x
    rw [foldlM_appendKeyColumn_contains cs pk₁ pk' st₁ st' h₂ x, appendKeyColumn_contains h₁,
      List.mem_cons]
    tauto

/-- The table with a key given when it had none: the key columns are as they were. -/
theorem withPrimaryKey_keys {sid tid : Id} {t t' : Table}
    (h : (withPrimaryKey sid tid t).run st = .ok t' st') (c : Id) :
    t'.isKeyColumn c = t.isKeyColumn c := by
  unfold withPrimaryKey at h
  split at h
  next =>
    obtain ⟨rfl, rfl⟩ := pure_run h
    rfl
  next hnone =>
    obtain ⟨name, st₁, -, h₂⟩ := run_bind_ok h
    obtain ⟨id, st₂, -, h₄⟩ := run_bind_ok h₂
    obtain ⟨rfl, rfl⟩ := pure_run h₄
    -- the key given is empty, and a table without a key has no key column
    rw [Table.isKeyColumn_eq (Table.primaryKey?_append hnone rfl)]
    simp [Table.isKeyColumn, hnone, Constraint.containsColumn]

/-- The table with columns appended to its key: the key columns are those of before and the
columns appended, and no others. -/
theorem extendPrimaryKey_keys {t t' : Table} {cs : List Id}
    (h : (extendPrimaryKey t cs).run st = .ok t' st') (hkey : t.primaryKey?.isSome) (c : Id) :
    t'.isKeyColumn c = true ↔ t.isKeyColumn c = true ∨ c ∈ cs := by
  unfold extendPrimaryKey at h
  split at h
  next hnone => rw [hnone] at hkey; cases hkey
  next pk hpk =>
    obtain ⟨pk', st₁, h₁, h₂⟩ := run_bind_ok h
    obtain ⟨rfl, rfl⟩ := pure_run h₂
    obtain ⟨-, hkind, -⟩ := foldlM_appendKeyColumn_run h₁
    rw [Table.isKeyColumn_eq (Table.primaryKey?_replace hpk (hkind.trans
      (Table.kind_of_primaryKey? hpk))), Table.isKeyColumn_eq hpk,
      foldlM_appendKeyColumn_contains cs pk pk' st st₁ h₁]

/-- What a successful `addToPrimaryKey` does: it puts back the table it read with other
constraints only, and the key columns are those of before and the columns given, and no
others. -/
theorem addToPrimaryKey_keys {sid tid : Id} {cs : List Id} {u : Unit}
    (h : (addToPrimaryKey sid tid cs).run st = .ok u st') :
    ∃ t ks, st.db.FindsTable sid tid t ∧
      st'.db = st.db.updateTable sid tid (fun _ => { t with constraints := ks }) ∧
      ∀ c, ({ t with constraints := ks } : Table).isKeyColumn c = true ↔
        t.isKeyColumn c = true ∨ c ∈ cs := by
  unfold addToPrimaryKey at h
  obtain ⟨t, st₁, h₁, h₂⟩ := run_bind_ok h
  obtain ⟨hst₁, ht⟩ := table_run h₁
  subst st₁
  obtain ⟨t₁, st₂, h₃, h₄⟩ := run_bind_ok h₂
  obtain ⟨hdb₂, ⟨ks₁, rfl⟩, -, hpk₁⟩ := withPrimaryKey_run h₃
  obtain ⟨t₂, st₃, h₅, h₆⟩ := run_bind_ok h₄
  obtain ⟨hdb₃, ⟨ks₂, rfl⟩, -, -⟩ := extendPrimaryKey_run h₅
  obtain ⟨_, st₄, h₇, h₈⟩ := run_bind_ok h₆
  obtain ⟨hput, -⟩ := modifyTable_run h₇
  obtain ⟨rfl, -⟩ := check_run h₈
  refine ⟨t, ks₂, ht, by rw [hput, hdb₃, hdb₂], fun c => ?_⟩
  rw [← withPrimaryKey_keys h₃ c]
  exact extendPrimaryKey_keys h₅ hpk₁ c

end EditM

end SchemaDesign
