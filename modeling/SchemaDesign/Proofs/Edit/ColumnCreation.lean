import SchemaDesign.Proofs.Edit.Nullability

/-!
# Creating a column grows its schema

A successful `createColumn` on an accepted, tidy snapshot leaves the snapshot grown by a growth
from the new column (`EditM.createColumn_grows`): the column put in at its place, its NOT_NULL
constraint, its key entry (in a key made for it when the table had none), and every holder column
key propagation adds below it, each with its mapping and its key entry.

The steps are read backwards, from the run that succeeded. Each keeps the invariant that the
snapshot is `db.grownBy sid G` for a growth `G` from the new column whose keys are in order
(`SchemaGrowth.Keyed`), and grows `G`:

- mapping a key column into a relationship adds one holder column (`attachForeignKey_grows`),
  fresh because its id was minted;
- growing a key adds key entries, and a key when the table had none (`addToPrimaryKey_grows`);
- key propagation does both, dependent after dependent and round after round, for columns held by
  the tables it visits (`propagateLoop_grows`).
-/

namespace SchemaDesign

theorem Constraint.containsColumn_iff {k : Constraint} {x : Id} :
    k.containsColumn x = true ↔ x ∈ k.columnIds := by
  simp [Constraint.containsColumn, Constraint.columnIds]

/-! ## Keys of a growth -/

/-- The keys of a table's parts are in order: an added key has no entries of its own and comes
with key entries, and key entries go to a table with a key, its own or an added one. -/
structure TableGrowth.Keyed (g : TableGrowth) (t : Table) : Prop where
  bare : ∀ k ∈ g.constraints, k.kind = .primaryKey → k.columns = []
  entered : (∃ k ∈ g.constraints, k.kind = .primaryKey) → g.keyEntries ≠ []
  keyed : g.keyEntries ≠ [] → t.primaryKey?.isSome ∨ ∃ k ∈ g.constraints, k.kind = .primaryKey

namespace TableGrowth

variable {g : TableGrowth} {t : Table}

/-- A grown table without a key is a table without one, grown with no key entry and no key. -/
theorem Keyed.unkeyed (hK : g.Keyed t) (ht : t.Settled) (hnone : (t.grow g).primaryKey? = none) :
    t.primaryKey? = none ∧ g.keyEntries = [] ∧ ∀ k ∈ g.constraints, k.kind ≠ .primaryKey := by
  have hnot : ¬(t.grow g).primaryKey?.isSome := by simp [hnone]
  have hke : g.keyEntries = [] := by
    by_contra hke
    refine hnot (Table.grow_primaryKey?_isSome ht ((hK.keyed hke).imp id fun hadded => ?_))
    obtain ⟨k, hk, hkind⟩ := hadded
    exact ⟨k, hk, hkind, hke⟩
  refine ⟨?_, hke, fun k hk hkind => hK.entered ⟨k, hk, hkind⟩ hke⟩
  cases h : t.primaryKey? with
  | none => rfl
  | some _ => exact absurd (Table.grow_primaryKey?_isSome ht (.inl (by simp [h]))) hnot

/-- Appending key entries keeps the keys in order when the grown table has a key. -/
theorem Keyed.addKeyEntries (hK : g.Keyed t) (hkey : (t.grow g).primaryKey?.isSome)
    (es : List ConstraintColumn) : { g with keyEntries := g.keyEntries ++ es }.Keyed t where
  bare := hK.bare
  entered h he := hK.entered h (List.append_eq_nil_iff.1 he).1
  keyed _ := by
    obtain ⟨pk, hpk⟩ := Option.isSome_iff_exists.1 hkey
    obtain ⟨k₀, hk₀, rfl, -⟩ :=
      Table.exists_of_mem_grow_constraints (List.mem_of_find?_eq_some hpk)
    have hkind : k₀.kind = .primaryKey := by
      simpa [Constraint.withKeyEntries_kind] using List.find?_some hpk
    rcases List.mem_append.1 hk₀ with hk₀ | hk₀
    · exact .inl (List.find?_isSome.2 ⟨k₀, hk₀, by simp [hkind]⟩)
    · exact .inr ⟨k₀, hk₀, hkind⟩

/-- A key added without entries of its own, with entries appended to it, keeps the keys in
order. -/
theorem Keyed.createKey (hK : g.Keyed t) {hdr : Constraint} (hkind : hdr.kind = .primaryKey)
    (hcols : hdr.columns = []) {es : List ConstraintColumn} (hes : es ≠ []) :
    { g with constraints := g.constraints ++ [hdr], keyEntries := g.keyEntries ++ es }.Keyed t where
  bare k hk hkpk := by
    rcases List.mem_append.1 hk with hk | hk
    · exact hK.bare k hk hkpk
    · rw [List.mem_singleton.1 hk]
      exact hcols
  entered _ := by simp [hes]
  keyed _ := .inr ⟨hdr, List.mem_append_right _ (List.mem_singleton_self _), hkind⟩

theorem Keyed.addColumn (hK : g.Keyed t) (c : Column) (m : Id × KeyMapping) :
    { g with columns := g.columns ++ [c], mappings := g.mappings ++ [m] }.Keyed t :=
  ⟨hK.bare, hK.entered, hK.keyed⟩

/-- A NOT_NULL constraint added keeps the keys in order. -/
theorem Keyed.addNotNull (hK : g.Keyed t) {k : Constraint} (hk : k.kind = .notNull) :
    { g with constraints := g.constraints ++ [k] }.Keyed t where
  bare k' hk' hkpk := by
    rcases List.mem_append.1 hk' with hk' | hk'
    · exact hK.bare k' hk' hkpk
    · rw [List.mem_singleton.1 hk', hk] at hkpk
      cases hkpk
  entered := by
    rintro ⟨k', hk', hkpk⟩
    rcases List.mem_append.1 hk' with hk' | hk'
    · exact hK.entered ⟨k', hk', hkpk⟩
    · rw [List.mem_singleton.1 hk', hk] at hkpk
      cases hkpk
  keyed he := by
    refine (hK.keyed he).imp id fun hadded => ?_
    obtain ⟨k', hk', hkpk⟩ := hadded
    exact ⟨k', List.mem_append_left _ hk', hkpk⟩

end TableGrowth

namespace Table

variable {t : Table} {g : TableGrowth}

theorem grow_primaryKey?_numbered {pk : Constraint} (h : (t.grow g).primaryKey? = some pk) :
    Numbered (·.seqNo) pk.columns := by
  obtain ⟨k₀, -, rfl, -⟩ := exists_of_mem_grow_constraints (List.mem_of_find?_eq_some h)
  have hkind : k₀.kind = .primaryKey := by
    simpa [Constraint.withKeyEntries_kind] using List.find?_some h
  unfold Constraint.withKeyEntries
  rw [if_pos hkind]
  exact numbered_renumberConstraintColumns _

/-- An added column that has no key entry is no key column of the grown table. -/
theorem grow_isKeyColumn_eq_false (hg : g.Fits t) (hK : g.Keyed t) {x : Id} (hx : x ∈ g.columnIds)
    (hxe : x ∉ g.keyEntries.map (·.columnId)) : (t.grow g).isKeyColumn x = false := by
  unfold isKeyColumn
  split
  next pk hpk =>
    obtain ⟨k₀, hk₀, rfl, -⟩ := exists_of_mem_grow_constraints (List.mem_of_find?_eq_some hpk)
    have hkind : k₀.kind = .primaryKey := by
      simpa [Constraint.withKeyEntries_kind] using List.find?_some hpk
    rw [Bool.eq_false_iff, ne_eq, Constraint.containsColumn_iff,
      Constraint.withKeyEntries_columnIds hkind]
    intro hmem
    rcases List.mem_append.1 hmem with hmem | hmem
    · rcases List.mem_append.1 hk₀ with hk₀ | hk₀
      · -- an original key mentions only original columns
        obtain ⟨e, he, rfl⟩ := List.mem_map.1 hmem
        exact hg.fresh _ hx (mentions_constraintEntry hk₀ he)
      · rw [Constraint.columnIds, hK.bare k₀ hk₀ hkind] at hmem
        exact absurd hmem List.not_mem_nil
    · exact hxe hmem
  next => rfl

end Table


/-! ## Grown snapshots -/

namespace Schema

variable {s : Schema} {G : SchemaGrowth}

theorem table?_grow_eq (tid : Id) : (s.grow G).table? tid = (s.table? tid).map (·.grow (G.part tid)) := by
  cases h : s.table? tid with
  | some t => exact table?_grow h
  | none =>
    unfold grow table?
    rw [List.find?_map]
    have hsame : ((fun t => decide (t.id = tid)) ∘ fun t : Table => t.grow (G.part t.id)) =
        fun t => decide (t.id = tid) := rfl
    unfold table? at h
    rw [hsame, h]
    rfl

end Schema

namespace Database.Ground

variable {db : Database} {sid : Id} {s : Schema} {G : SchemaGrowth}

/-- A table the grown snapshot finds is a table of the schema, grown by its part. -/
theorem findsTable_grownBy (hg : db.Ground sid s) {tid : Id} {t' : Table}
    (h : (db.grownBy sid G).FindsTable sid tid t') :
    ∃ t ∈ s.tables, t.id = tid ∧ t' = t.grow (G.part tid) := by
  obtain ⟨s', hs', ht'⟩ := h
  rw [Database.schema?_grownBy hg.schema, Option.some.injEq] at hs'
  subst hs'
  rw [Schema.table?_grow_eq, Option.map_eq_some_iff] at ht'
  obtain ⟨t, ht, rfl⟩ := ht'
  exact ⟨t, List.mem_of_find?_eq_some ht, by simpa using List.find?_some ht, rfl⟩

theorem home_of_mem_grow_referencing (hg : db.Ground sid s) {P : Id} {r : Relationship}
    (h : r ∈ (s.grow G).referencing P) :
    ∃ t ∈ s.tables, t.id = r.fkTableId ∧ ∃ r₀ ∈ t.relationships, r₀.id = r.id ∧ r₀.pkTableId = P := by
  obtain ⟨hr, hP⟩ := List.mem_filter.1 h
  obtain ⟨t, ht, r₀, hr₀, rfl⟩ := Schema.mem_grow_relationships hr
  have hP' : (r₀.withMappings (G.part t.id).mappings).pkTableId = P := by simpa using hP
  exact ⟨t, ht, (hg.holders t ht r₀ hr₀).symm, r₀, hr₀, rfl, hP'⟩

theorem updateTable_grownBy (hg : db.Ground sid s) {t : Table} (ht : t ∈ s.tables)
    {G' : SchemaGrowth} (hother : ∀ t' ∈ s.tables, t'.id ≠ t.id → G'.part t'.id = G.part t'.id)
    {f : Table → Table} (hf : f (t.grow (G.part t.id)) = t.grow (G'.part t.id)) :
    (db.grownBy sid G).updateTable sid t.id f = db.grownBy sid G' :=
  Database.updateTable_grownBy hg.schema hg.tableIds (fun t' ht' hid => by
    obtain rfl := List.inj_on_of_nodup_map hg.tableIds ht' ht hid
    exact hf) hother

end Database.Ground


theorem Database.ground_of_validate {db : Database} (hv : db.validate = .ok ()) {s : Schema}
    (hs : s ∈ db.schemas) (htidy : ∀ t ∈ s.tables, t.Tidy) : db.Ground s.id s where
  schema := Database.schema?_of_mem (Database.labelledIds_nodup_of_validate hv) hs
  tableIds := Database.tableIds_nodup (Database.labelledIds_nodup_of_validate hv) hs
  settled t ht := Database.settled_of_validate hv hs ht (htidy t ht)
  holders _ ht _ hr := Database.fkTableId_of_validate hv hs ht hr

/-- The parts of a table with nothing added fit it and have their keys in order. -/
theorem TableGrowth.fits_empty {t : Table} : ({} : TableGrowth).Fits t where
  fresh _ h := absurd h List.not_mem_nil
  nodup := List.nodup_nil
  mappings _ h := absurd h List.not_mem_nil
  keyEntries _ h := absurd h List.not_mem_nil
  constraintEntries _ h := absurd h List.not_mem_nil
  numbered _ h := absurd h List.not_mem_nil
  kinds _ h := absurd h List.not_mem_nil
  kindsNodup := List.nodup_nil

/-! ## Growths of a creation -/

/-- A growth a column creation passes through: from the new column `c`, with the keys of every
table's part in order. -/
structure SchemaGrowth.Creates (G : SchemaGrowth) (s : Schema) (c : Column) : Prop where
  growth : G.From s c
  keyed : ∀ t ∈ s.tables, (G.part t.id).Keyed t

namespace SchemaGrowth

variable {G G' : SchemaGrowth} {s : Schema} {c : Column}

/-- A growth that changes the part of one table, and no column, creates as the growth did when the
new part fits and has its keys in order. -/
theorem Creates.change_part (hC : G.Creates s c) (hids : (s.tables.map (·.id)).Nodup)
    {t : Table} (ht : t ∈ s.tables)
    (htable : G'.table = G.table) (hplaced : G'.placed = G.placed) (hsprouts : G'.sprouts = G.sprouts)
    (hother : ∀ t' ∈ s.tables, t'.id ≠ t.id → G'.part t'.id = G.part t'.id)
    (hfits : (G'.part t.id).Fits t) (hkeyed : (G'.part t.id).Keyed t) : G'.Creates s c := by
  have hcols : G'.columnIds = G.columnIds := by
    unfold columnIds
    rw [hplaced, hsprouts]
  refine ⟨⟨⟨fun t' ht' => ?_, hcols ▸ hC.growth.fits.fresh, hcols ▸ hC.growth.fits.nodup,
    hsprouts ▸ hC.growth.fits.homes⟩, htable ▸ hC.growth.table, hplaced ▸ hC.growth.placed,
    htable ▸ hsprouts ▸ hC.growth.rooted⟩, fun t' ht' => ?_⟩
  · by_cases hid : t'.id = t.id
    · obtain rfl := List.inj_on_of_nodup_map hids ht' ht hid
      exact hfits
    · rw [hother t' ht' hid]
      exact hC.growth.fits.parts t' ht'
  · by_cases hid : t'.id = t.id
    · obtain rfl := List.inj_on_of_nodup_map hids ht' ht hid
      exact hkeyed
    · rw [hother t' ht' hid]
      exact hC.keyed t' ht'

/-- A holder column added with its mapping, in a relationship of a table of the schema that
references its provider, keeps the growth one of a creation when the column is new and maps a
column its provider holds. -/
theorem Creates.addSprout (hC : G.Creates s c) {y : Sprout}
    (hhome : ∃ t ∈ s.tables, t.id = y.table ∧
      ∃ r ∈ t.relationships, r.id = y.relationship ∧ r.pkTableId = y.provider)
    (hfresh : ∀ t ∈ s.tables, y.column.id ∉ t.mentionedIds) (hnew : y.column.id ∉ G.columnIds)
    (hholds : Sprout.Holds G.table c.id G.sprouts y.provider y.key) : (G.addSprout y).Creates s c := by
  have hother : ∀ t : Table, t.id ≠ y.table → (G.addSprout y).part t.id = G.part t.id :=
    fun _ hid => part_addSprout_of_ne (Ne.symm hid)
  refine ⟨⟨⟨fun t ht => ?_, fun x hx => ?_, ?_, fun y' hy' => ?_⟩, hC.growth.table,
    hC.growth.placed, hC.growth.rooted.snoc hholds⟩, fun t ht => ?_⟩
  · by_cases hid : t.id = y.table
    · rw [hid, part_addSprout_self]
      exact (hid ▸ hC.growth.fits.parts t ht).addColumn (hfresh t ht)
        (fun h => hnew ((part_columnIds_sublist _).subset h)) y.relationship y.mappingId y.key
    · rw [hother t hid]
      exact hC.growth.fits.parts t ht
  · rw [addSprout_columnIds] at hx
    rcases List.mem_append.1 hx with hx | hx
    · exact hC.growth.fits.fresh x hx
    · exact (List.mem_singleton.1 hx) ▸ hfresh
  · rw [addSprout_columnIds]
    exact List.nodup_append.2 ⟨hC.growth.fits.nodup, List.nodup_singleton _,
      fun a ha b hb hab => hnew (List.mem_singleton.1 hb ▸ hab ▸ ha)⟩
  · rcases List.mem_append.1 hy' with hy' | hy'
    · exact hC.growth.fits.homes y' hy'
    · exact (List.mem_singleton.1 hy') ▸ hhome
  · by_cases hid : t.id = y.table
    · rw [hid, part_addSprout_self]
      exact (hid ▸ hC.keyed t ht).addColumn _ _
    · rw [hother t hid]
      exact hC.keyed t ht

theorem mem_part_columnIds {y : Sprout} (hy : y ∈ G.sprouts) : y.column.id ∈ (G.part y.table).columnIds := by
  unfold part TableGrowth.columnIds
  refine List.mem_append_right _ ?_
  rw [List.map_map]
  exact List.mem_map_of_mem (List.mem_filter.2 ⟨hy, by simp⟩)

/-- The growth with holder columns added in order. -/
def addSprouts (G : SchemaGrowth) (ys : List Sprout) : SchemaGrowth := { G with sprouts := G.sprouts ++ ys }

@[simp] theorem addSprouts_nil : G.addSprouts [] = G := by
  simp [addSprouts]

theorem addSprouts_addSprout (ys : List Sprout) (y : Sprout) :
    (G.addSprouts ys).addSprout y = G.addSprouts (ys ++ [y]) := by
  simp [addSprouts, addSprout]

/-- Every key column of the worklist is held by the table it is queued with. -/
def HoldsAll (G : SchemaGrowth) (cid : Id) (work : List (Id × List Id)) : Prop :=
  ∀ p ∈ work, ∀ k ∈ p.2, Sprout.Holds G.table cid G.sprouts p.1 k

theorem HoldsAll.mono {cid : Id} {work : List (Id × List Id)} (h : G.HoldsAll cid work)
    (htable : G'.table = G.table) (hsub : G.sprouts ⊆ G'.sprouts) : G'.HoldsAll cid work :=
  fun p hp k hk => htable ▸ (h p hp k hk).mono hsub

end SchemaGrowth

/-! ## Growing a key by fresh columns -/

namespace EditM

variable {st st' : Session}

/-- Columns the key does not hold, appended one by one: each becomes a new last entry. -/
theorem foldlM_appendKeyColumn_fresh :
    ∀ (cs : List Id) (pk pk' : Constraint) (st st' : Session),
      (cs.foldlM appendKeyColumn pk).run st = .ok pk' st' →
      (∀ c ∈ cs, pk.containsColumn c = false) → cs.Nodup → Numbered (·.seqNo) pk.columns →
      st'.db = st.db ∧ ∃ es : List ConstraintColumn, pk' = { pk with columns := pk.columns ++ es } ∧
        es.map (·.columnId) = cs ∧ Numbered (·.seqNo) (pk.columns ++ es)
  | [], pk, pk', st, st', h, _, _, hnum => by
    obtain ⟨rfl, rfl⟩ := pure_run h
    exact ⟨rfl, [], by simp, rfl, by simpa using hnum⟩
  | c :: cs, pk, pk', st, st', h, hout, hnd, hnum => by
    rw [List.foldlM_cons] at h
    obtain ⟨pk₁, st₁, h₁, h₂⟩ := run_bind_ok h
    unfold appendKeyColumn at h₁
    rw [if_neg (by simp [hout c List.mem_cons_self])] at h₁
    obtain ⟨id, st₀, h₀, h₁⟩ := run_bind_ok h₁
    obtain ⟨rfl, rfl⟩ := pure_run h₁
    have hnum₁ : Numbered (·.seqNo) (pk.columns ++ [⟨id, c, pk.columns.length + 1⟩]) :=
      hnum.append_singleton rfl
    have hout₁ : ∀ c' ∈ cs, ({ pk with columns := pk.columns ++ [⟨id, c, pk.columns.length + 1⟩] } :
        Constraint).containsColumn c' = false := by
      intro c' hc'
      have hne : c' ≠ c := fun h => (List.nodup_cons.1 hnd).1 (h ▸ hc')
      simpa [Constraint.containsColumn, Ne.symm hne] using hout c' (List.mem_cons_of_mem _ hc')
    obtain ⟨hdb, es, rfl, hids, hnum₂⟩ :=
      foldlM_appendKeyColumn_fresh cs _ pk' st₀ st' h₂ hout₁ (List.nodup_cons.1 hnd).2 hnum₁
    refine ⟨hdb.trans (mint_run h₀), ⟨id, c, pk.columns.length + 1⟩ :: es, by simp, by simp [hids],
      by simpa using hnum₂⟩

/-- A successful `addToPrimaryKey` of columns the table's key does not hold: the columns become
new last entries of the key, or of a key made for them when the table had none. -/
theorem addToPrimaryKey_fresh_run {sid tid : Id} {cs : List Id} {t : Table} {u : Unit}
    (h : (addToPrimaryKey sid tid cs).run st = .ok u st') (ht : st.db.FindsTable sid tid t)
    (hout : ∀ c ∈ cs, t.isKeyColumn c = false) (hnd : cs.Nodup)
    (hnum : ∀ pk, t.primaryKey? = some pk → Numbered (·.seqNo) pk.columns) :
    ∃ es : List ConstraintColumn, es.map (·.columnId) = cs ∧
      ((∃ pk, t.primaryKey? = some pk ∧ Numbered (·.seqNo) (pk.columns ++ es) ∧
        st'.db = st.db.updateTable sid tid fun _ =>
          { t with
            constraints := updateFirst (·.kind = .primaryKey)
              (fun _ => { pk with columns := pk.columns ++ es }) t.constraints }) ∨
       (t.primaryKey? = none ∧ Numbered (·.seqNo) es ∧ ∃ hdr : Constraint, hdr.kind = .primaryKey ∧
        hdr.columns = [] ∧ st'.db = st.db.updateTable sid tid fun _ =>
          { t with
            constraints := updateFirst (·.kind = .primaryKey)
              (fun _ => { hdr with columns := hdr.columns ++ es }) (t.constraints ++ [hdr]) })) := by
  unfold addToPrimaryKey at h
  obtain ⟨t₀, st₁, h₁, h₂⟩ := run_bind_ok h
  obtain ⟨hst₁, ht₀⟩ := table_run h₁
  have ht₀t : t₀ = t := Database.FindsTable.unique ht₀ ht
  subst st₁ t₀
  obtain ⟨t₁, st₂, h₃, h₄⟩ := run_bind_ok h₂
  obtain ⟨t₂, st₃, h₅, h₆⟩ := run_bind_ok h₄
  obtain ⟨_, st₄, h₇, h₈⟩ := run_bind_ok h₆
  obtain ⟨hput, -⟩ := modifyTable_run h₇
  obtain ⟨rfl, -⟩ := check_run h₈
  -- the key the columns are appended to: the table's own, or one made for them
  obtain ⟨pk, hdb₂, hpk₁, hnum₁, hout₁, hcases⟩ : ∃ pk, st₂.db = st.db ∧ t₁.primaryKey? = some pk ∧
      Numbered (·.seqNo) pk.columns ∧ (∀ c ∈ cs, pk.containsColumn c = false) ∧
      ((t.primaryKey? = some pk ∧ t₁ = t) ∨ (t.primaryKey? = none ∧ pk.kind = .primaryKey ∧
        pk.columns = [] ∧ t₁ = { t with constraints := t.constraints ++ [pk] })) := by
    unfold withPrimaryKey at h₃
    split at h₃
    next pk hpk =>
      obtain ⟨rfl, rfl⟩ := pure_run h₃
      exact ⟨pk, rfl, hpk, hnum pk hpk, fun c hc => (Table.isKeyColumn_eq hpk c) ▸ hout c hc,
        .inl ⟨hpk, rfl⟩⟩
    next hnone =>
      obtain ⟨name, st₅, h₉, h₁₀⟩ := run_bind_ok h₃
      obtain ⟨id, st₆, h₁₁, h₁₂⟩ := run_bind_ok h₁₀
      obtain ⟨rfl, rfl⟩ := pure_run h₁₂
      have hdb₅ : st.db = st₅.db := (keeps_freshConstraintName sid _ : Keeps Eq _) _ _ _ h₉
      exact ⟨_, (mint_run h₁₁).trans hdb₅.symm, Table.primaryKey?_append hnone rfl, rfl,
        fun _ _ => rfl, .inr ⟨hnone, rfl, rfl, rfl⟩⟩
  unfold extendPrimaryKey at h₅
  split at h₅
  next hnone => rw [hpk₁] at hnone; cases hnone
  next pk' hpk' =>
  rw [hpk₁, Option.some.injEq] at hpk'
  subst hpk'
  obtain ⟨pk'', st₇, h₉, h₁₀⟩ := run_bind_ok h₅
  obtain ⟨rfl, rfl⟩ := pure_run h₁₀
  obtain ⟨hdb₇, es, rfl, hids, hnum'⟩ := foldlM_appendKeyColumn_fresh cs pk _ _ _ h₉ hout₁ hnd hnum₁
  refine ⟨es, hids, ?_⟩
  rcases hcases with ⟨hpk, rfl⟩ | ⟨hnone, hkind, hcols, rfl⟩
  · exact .inl ⟨pk, hpk, hnum', by rw [hput, hdb₇, hdb₂]⟩
  · refine .inr ⟨hnone, by simpa [hcols] using hnum', pk, hkind, hcols, ?_⟩
    rw [hput, hdb₇, hdb₂]

/-- Two ways to compute a value, neither changing the snapshot, followed by the same steps: the
steps run on from the same snapshot. -/
theorem run_ite_bind {c : Prop} [Decidable c] {α β : Type} {x y : EditM α} {k : α → EditM β}
    (hx : Keeps Eq x) (hy : Keeps Eq y) {b : β} (h : (if c then x >>= k else y >>= k).run st = .ok b st') :
    ∃ a st₁, st₁.db = st.db ∧ (k a).run st₁ = .ok b st' := by
  split at h
  all_goals
    obtain ⟨a, st₁, h₁, h₂⟩ := run_bind_ok h
    first
      | exact ⟨a, st₁, (hx _ _ _ h₁).symm, h₂⟩
      | exact ⟨a, st₁, (hy _ _ _ h₁).symm, h₂⟩

section Creation

variable {db : Database} {sid : Id} {s : Schema} {c : Column} {G : SchemaGrowth}

/-- Growing a key by added columns of one table that are not in it yet adds their key entries,
and a key when the grown table had none. -/
theorem addToPrimaryKey_grows (hg : db.Ground sid s) (hC : G.Creates s c)
    (hst : st.db = db.grownBy sid G) {tid : Id} {cs : List Id}
    (hcs : ∀ x ∈ cs, x ∈ (G.part tid).columnIds ∧ x ∉ (G.part tid).keyEntries.map (·.columnId))
    (hnd : cs.Nodup) (hne : cs ≠ []) {u : Unit} (h : (addToPrimaryKey sid tid cs).run st = .ok u st') :
    ∃ G' : SchemaGrowth, G'.Creates s c ∧ st'.db = db.grownBy sid G' ∧ G'.table = G.table ∧
      G'.sprouts = G.sprouts := by
  obtain ⟨t₀, -, ht₀, -⟩ := addToPrimaryKey_run h
  obtain ⟨t, ht, rfl, rfl⟩ := hg.findsTable_grownBy (hst ▸ ht₀)
  have hset := hg.settled t ht
  have hfits := hC.growth.fits.parts t ht
  have hkeyed := hC.keyed t ht
  obtain ⟨es, hids, hcases⟩ := addToPrimaryKey_fresh_run h ht₀
    (fun x hx => Table.grow_isKeyColumn_eq_false hfits hkeyed (hcs x hx).1 (hcs x hx).2) hnd
    (fun _ hpk => Table.grow_primaryKey?_numbered hpk)
  have hentries : ∀ e ∈ es, e.columnId ∈ (G.part t.id).columnIds := fun e he =>
    (hcs _ (hids ▸ List.mem_map_of_mem he)).1
  rcases hcases with ⟨pk, hpk, hnum, hdb⟩ | ⟨hnone, hnum, hdr, hkind, hcols, hdb⟩
  · -- the grown table has a key: the entries join it
    have hpart : (G.addKeyEntries t.id es).part t.id = _ := SchemaGrowth.part_addKeyEntries_self es
    refine ⟨G.addKeyEntries t.id es, ?_, ?_, rfl, rfl⟩
    · refine hC.change_part hg.tableIds ht rfl rfl rfl
        (fun t' _ hid => SchemaGrowth.part_addKeyEntries_of_ne (Ne.symm hid) es) ?_ ?_
      · rw [hpart]
        exact hfits.addKeyEntries hentries
      · rw [hpart]
        exact hkeyed.addKeyEntries (by simp [hpk]) es
    · rw [hdb, hst]
      refine hg.updateTable_grownBy ht
        (fun t' _ hid => SchemaGrowth.part_addKeyEntries_of_ne (Ne.symm hid) es) ?_
      rw [hpart, Table.grow_extendKey hset hfits hpk hnum]
      rfl
  · -- the grown table has no key: a key is made for the entries
    obtain ⟨htnone, hke, hnokey⟩ := hkeyed.unkeyed hset hnone
    have hesne : es ≠ [] := fun h => hne (by rw [← hids, h, List.map_nil])
    have hpart : ((G.addConstraint t.id hdr).addKeyEntries t.id es).part t.id =
        { G.part t.id with
          constraints := (G.part t.id).constraints ++ [hdr]
          keyEntries := (G.part t.id).keyEntries ++ es } := by
      rw [SchemaGrowth.part_addKeyEntries_self, SchemaGrowth.part_addConstraint_self]
    have hother : ∀ t' ∈ s.tables, t'.id ≠ t.id →
        ((G.addConstraint t.id hdr).addKeyEntries t.id es).part t'.id = G.part t'.id :=
      fun t' _ hid => by
        rw [SchemaGrowth.part_addKeyEntries_of_ne (Ne.symm hid),
          SchemaGrowth.part_addConstraint_of_ne (Ne.symm hid)]
    refine ⟨(G.addConstraint t.id hdr).addKeyEntries t.id es, ?_, ?_, rfl, rfl⟩
    · refine hC.change_part hg.tableIds ht rfl rfl rfl hother ?_ ?_
      · rw [hpart]
        refine (hfits.addConstraint (.inr ⟨hkind, htnone⟩) (fun k hk => hkind ▸ hnokey k hk)
          (by simp [hcols]) (by rw [hcols]; rfl)).addKeyEntries hentries
      · rw [hpart]
        exact hkeyed.createKey hkind hcols hesne
    · rw [hdb, hst]
      refine hg.updateTable_grownBy ht hother ?_
      rw [hpart, hke, List.nil_append, Table.grow_createKey hset hnone hnokey hke hkind hcols hnum hesne]
      rfl

/-- Mapping a key column of the provider into a relationship of the holder, onto a holder column
the snapshot mentions nowhere, adds that column with its mapping to the growth. -/
theorem attachForeignKey_grows (hg : db.Ground sid s) (hC : G.Creates s c)
    (hst : st.db = db.grownBy sid G) {hid rid pid : Id} {spec : FkSpec}
    (hfresh : spec.fkColumnId ∉ st.db.mentionedIds)
    (hholds : Sprout.Holds G.table c.id G.sprouts pid spec.pkColumnId)
    (hrel : ∃ t ∈ s.tables, t.id = hid ∧ ∃ r ∈ t.relationships, r.id = rid ∧ r.pkTableId = pid)
    {fk : Id} (h : (attachForeignKey sid hid rid pid spec).run st = .ok fk st') :
    fk = spec.fkColumnId ∧ ∃ col : Column, col.id = spec.fkColumnId ∧
      (G.addSprout ⟨hid, pid, rid, spec.mappingId, spec.pkColumnId, col⟩).Creates s c ∧
      st'.db = db.grownBy sid (G.addSprout ⟨hid, pid, rid, spec.mappingId, spec.pkColumnId, col⟩) := by
  refine ⟨attachForeignKey_returns sid hid rid pid spec _ _ _ h, ?_⟩
  obtain ⟨t, ht, rfl, hr⟩ := hrel
  obtain ⟨hnew, hnewG⟩ := Database.fresh_of_not_mem_grownBy hg.schema hg.tableIds hg.settled
    hC.growth.fits hC.growth.table (hst ▸ hfresh)
  have hfound : st.db.FindsTable sid t.id (t.grow (G.part t.id)) :=
    hst ▸ Database.findsTable_grownBy hg.schema (Schema.table?_of_mem hg.tableIds ht)
  unfold attachForeignKey at h
  obtain ⟨provider, st₁, h₁, h₂⟩ := run_bind_ok h
  obtain ⟨hst₁, -⟩ := table_run h₁
  subst st₁
  split at h₂
  rotate_left
  · cases h₂
  rename_i source hsource
  obtain ⟨holder, st₂, h₃, h₄⟩ := run_bind_ok h₂
  obtain ⟨hst₂, hholder⟩ := table_run h₃
  subst st₂
  have hholder : holder = t.grow (G.part t.id) := Database.FindsTable.unique hholder hfound
  subst hholder
  -- the holder column is missing: the snapshot mentions it nowhere
  have hmissing : ((t.grow (G.part t.id)).column? spec.fkColumnId).isNone = true := by
    cases hcol : (t.grow (G.part t.id)).column? spec.fkColumnId with
    | none => rfl
    | some col =>
      have hcolid : col.id = spec.fkColumnId := by simpa using List.find?_some hcol
      exact absurd (hfound.mentionedIds_subset
        (hcolid ▸ Table.mentions_column (List.mem_of_find?_eq_some hcol))) hfresh
  dsimp only at h₄
  rw [if_pos hmissing] at h₄
  obtain ⟨_, st₃, h₅, h₆⟩ := run_bind_ok h₄
  obtain ⟨hst₃, -⟩ := ensureFreshId_run h₅
  subst st₃
  split at h₆
  case' h_1 =>
    obtain ⟨_, st₄, h₇, h₈⟩ := run_bind_ok h₆
    obtain ⟨hst₄, -⟩ := checkColumnName_run h₇
    subst st₄
    obtain ⟨name, st₅, h₉, h₁₀⟩ := run_bind_ok h₈
  case' h_2 =>
    obtain ⟨cfg, st₄, h₇, h₈⟩ := run_bind_ok h₆
    obtain ⟨hst₄, -⟩ := config_run h₇
    subst st₄
    obtain ⟨name, st₅, h₉, h₁₀⟩ := run_bind_ok h₈
  all_goals
    obtain ⟨-, hst₅⟩ := pure_run h₉
    subst st₅
    obtain ⟨_, st₆, h₁₁, h₁₂⟩ := run_bind_ok h₁₀
    obtain ⟨hdb₆, -⟩ := modifyTable_run h₁₁
    obtain ⟨_, st₇, h₁₃, h₁₄⟩ := run_bind_ok h₁₂
    obtain ⟨hst₇, -⟩ := ensureFreshId_run h₁₃
    subst st₇
    obtain ⟨holder, st₈, h₁₅, h₁₆⟩ := run_bind_ok h₁₄
    obtain ⟨hst₈, -⟩ := table_run h₁₅
    subst st₈
    split at h₁₆
    · obtain ⟨_, _, h₁₇, -⟩ := run_bind_ok h₁₆
      cases h₁₇
    obtain ⟨_, st₉, h₁₇, h₁₈⟩ := run_bind_ok h₁₆
    obtain ⟨hdb₉, -⟩ := modifyTable_run h₁₇
    obtain ⟨-, rfl⟩ := pure_run h₁₈
    refine ⟨mirrorColumn source spec.fkColumnId t.id name, rfl,
      hC.addSprout ⟨t, ht, rfl, hr⟩ hnew hnewG hholds, ?_⟩
    rw [hdb₉, hdb₆, Database.updateTable_updateTable ?hid, hst]
    case hid => exact fun _ => rfl
    refine hg.updateTable_grownBy ht (fun t' _ hid => SchemaGrowth.part_addSprout_of_ne (Ne.symm hid)) ?_
    rw [SchemaGrowth.part_addSprout_self]
    dsimp only
    rw [Table.grow_appendColumn, Table.grow_attach (hg.settled t ht)]
    rfl

/-- Copying one key column of the provider into a dependent relationship: it was mapped already,
and nothing changes, or one holder column is added with its mapping. -/
theorem propagateKey_grows (hg : db.Ground sid s) (hC : G.Creates s c)
    (hst : st.db = db.grownBy sid G) {pid hid rid key : Id}
    (hholds : Sprout.Holds G.table c.id G.sprouts pid key)
    (hrel : ∃ t ∈ s.tables, t.id = hid ∧ ∃ r ∈ t.relationships, r.id = rid ∧ r.pkTableId = pid)
    {added added' : List Id} (h : (propagateKey sid pid hid rid added key).run st = .ok added' st') :
    (added' = added ∧ st'.db = st.db) ∨ ∃ y : Sprout, y.table = hid ∧
      added' = added ++ [y.column.id] ∧ (G.addSprout y).Creates s c ∧
      st'.db = db.grownBy sid (G.addSprout y) := by
  unfold propagateKey at h
  obtain ⟨holder, st₁, h₁, h₂⟩ := run_bind_ok h
  obtain ⟨hst₁, -⟩ := table_run h₁
  subst st₁
  dsimp only at h₂
  -- whether the relationship maps the key already, then whether to copy it
  split at h₂ <;> split at h₂
  all_goals first
    | (rw [run_pure, EStateM.Result.ok.injEq] at h₂
       obtain ⟨rfl, rfl⟩ := h₂
       exact .inl ⟨rfl, rfl⟩)
    | (obtain ⟨spec, st₂, h₃, h₄⟩ := run_bind_ok h₂
       obtain ⟨hdb₂, hpk, hfresh⟩ := reads_freshSpec key _ _ _ h₃
       obtain ⟨fk, st₃, h₅, h₆⟩ := run_bind_ok h₄
       obtain ⟨rfl, rfl⟩ := pure_run h₆
       obtain ⟨hfk, col, hcol, hC', hdb'⟩ := attachForeignKey_grows hg hC (hdb₂.trans hst)
         (hdb₂ ▸ hfresh) (hpk ▸ hholds) hrel h₅
       exact .inr ⟨_, rfl, by rw [hfk, ← hcol], hC', hdb'⟩)

/-- Copying key columns held by the provider into a dependent relationship adds holder columns
of the holder, one for each key column not mapped yet, and gives back their ids. -/
theorem propagateInto_grows (hg : db.Ground sid s) {pid hid rid : Id}
    (hrel : ∃ t ∈ s.tables, t.id = hid ∧ ∃ r ∈ t.relationships, r.id = rid ∧ r.pkTableId = pid) :
    ∀ (keys : List Id) (ys : List Sprout) (st st' : Session) (added' : List Id),
      (∀ k ∈ keys, Sprout.Holds G.table c.id G.sprouts pid k) → (G.addSprouts ys).Creates s c →
      st.db = db.grownBy sid (G.addSprouts ys) → (∀ y ∈ ys, y.table = hid) →
      (keys.foldlM (propagateKey sid pid hid rid) (ys.map (·.column.id))).run st = .ok added' st' →
      ∃ ys' : List Sprout, added' = ys'.map (·.column.id) ∧ (∀ y ∈ ys', y.table = hid) ∧
        (G.addSprouts ys').Creates s c ∧ st'.db = db.grownBy sid (G.addSprouts ys')
  | [], ys, st, st', added', _, hC, hst, hys, h => by
    obtain ⟨rfl, rfl⟩ := pure_run h
    exact ⟨ys, rfl, hys, hC, hst⟩
  | key :: keys, ys, st, st', added', hkeys, hC, hst, hys, h => by
    rw [List.foldlM_cons] at h
    obtain ⟨added, st₁, h₁, h₂⟩ := run_bind_ok h
    have hholds : Sprout.Holds (G.addSprouts ys).table c.id (G.addSprouts ys).sprouts pid key :=
      (hkeys key List.mem_cons_self).mono (List.subset_append_left _ _)
    have hrest : ∀ k ∈ keys, Sprout.Holds G.table c.id G.sprouts pid k :=
      fun k hk => hkeys k (List.mem_cons_of_mem _ hk)
    rcases propagateKey_grows hg hC hst hholds hrel h₁ with ⟨rfl, hdb⟩ | ⟨y, hy, rfl, hC', hdb'⟩
    · exact propagateInto_grows hg hrel keys ys st₁ st' added' hrest hC (hdb.trans hst) hys h₂
    · rw [SchemaGrowth.addSprouts_addSprout] at hC' hdb'
      refine propagateInto_grows hg hrel keys (ys ++ [y]) st₁ st' added' hrest hC' hdb' ?_ ?_
      · intro y' hy'
        rcases List.mem_append.1 hy' with hy' | hy'
        · exact hys y' hy'
        · exact (List.mem_singleton.1 hy') ▸ hy
      · rwa [List.map_append, List.map_singleton]


/-- The holder columns a round queues with their holder are among those it added. -/
theorem mem_foldl_queue {hid : Id} : ∀ (xs : List Id) (acc : List Id × List (Id × Id)) {k : Id},
    k ∈ (xs.foldl (fun (acc : List Id × List (Id × Id)) c =>
      if acc.2.contains (hid, c) then acc else (acc.1 ++ [c], acc.2 ++ [(hid, c)])) acc).1 →
    k ∈ acc.1 ∨ k ∈ xs
  | [], _, _, h => .inl h
  | x :: xs, acc, k, h => by
    rw [List.foldl_cons] at h
    rcases mem_foldl_queue xs _ h with h | h
    · split at h
      · exact .inl h
      · rcases List.mem_append.1 h with h | h
        · exact .inl h
        · exact .inr ((List.mem_singleton.1 h) ▸ List.mem_cons_self)
    · exact .inr (List.mem_cons_of_mem _ h)

/-- A dependent visited as a whole: holder columns are added for the key columns it does not map
yet, they join the holder's key, and the holder is queued with columns it holds. -/
theorem propagateDependent_grows (hg : db.Ground sid s) (hC : G.Creates s c)
    (hst : st.db = db.grownBy sid G) {pid : Id} {keys : List Id}
    (hkeys : ∀ k ∈ keys, Sprout.Holds G.table c.id G.sprouts pid k) {hid rid : Id}
    (hrel : ∃ t ∈ s.tables, t.id = hid ∧ ∃ r ∈ t.relationships, r.id = rid ∧ r.pkTableId = pid)
    {acc acc' : List (Id × List Id) × List (Id × Id) × Nat} (hwork : G.HoldsAll c.id acc.1)
    (h : (propagateDependent sid pid keys acc (hid, rid)).run st = .ok acc' st') :
    ∃ G' : SchemaGrowth, G'.Creates s c ∧ st'.db = db.grownBy sid G' ∧ G'.table = G.table ∧
      G.sprouts ⊆ G'.sprouts ∧ G'.HoldsAll c.id acc'.1 := by
  obtain ⟨rest, visited, count⟩ := acc
  unfold propagateDependent at h
  dsimp only at h
  obtain ⟨added, st₁, h₁, h₂⟩ := run_bind_ok h
  unfold propagateInto at h₁
  obtain ⟨ys, rfl, hys, hC₁, hdb₁⟩ := propagateInto_grows hg hrel keys [] st st₁ added hkeys
    (by rwa [SchemaGrowth.addSprouts_nil]) (by rwa [SchemaGrowth.addSprouts_nil]) (fun _ h => absurd h List.not_mem_nil) h₁
  have hsub : G.sprouts ⊆ (G.addSprouts ys).sprouts := List.subset_append_left _ _
  split at h₂
  · obtain ⟨rfl, rfl⟩ := pure_run h₂
    exact ⟨G.addSprouts ys, hC₁, hdb₁, rfl, hsub, hwork.mono rfl hsub⟩
  next hne =>
  obtain ⟨_, st₂, h₃, h₄⟩ := run_bind_ok h₂
  obtain ⟨t, ht, rfl, -⟩ := hrel
  have hnodup := hC₁.growth.fits.nodup
  have hcols : (G.addSprouts ys).columnIds = G.columnIds ++ ys.map (·.column.id) := by
    simp [SchemaGrowth.columnIds, SchemaGrowth.addSprouts]
  rw [hcols] at hnodup
  obtain ⟨-, hysnd, hdisj⟩ := List.nodup_append.1 hnodup
  have hcs : ∀ x ∈ ys.map (·.column.id), x ∈ ((G.addSprouts ys).part t.id).columnIds ∧
      x ∉ ((G.addSprouts ys).part t.id).keyEntries.map (·.columnId) := by
    intro x hx
    obtain ⟨y, hy, rfl⟩ := List.mem_map.1 hx
    refine ⟨hys y hy ▸ SchemaGrowth.mem_part_columnIds (List.mem_append_right _ hy), fun hkey => ?_⟩
    obtain ⟨e, he, hex⟩ := List.mem_map.1 hkey
    have hold := (SchemaGrowth.part_columnIds_sublist t.id).subset
      ((hC.growth.fits.parts t ht).keyEntries e he)
    exact hdisj _ hold _ hx hex
  obtain ⟨G₂, hC₂, hdb₂, htable₂, hsprouts₂⟩ :=
    addToPrimaryKey_grows hg hC₁ hdb₁ hcs hysnd (by simpa using hne) h₃
  obtain ⟨_, st₃, h₅, h₆⟩ := run_bind_ok h₄
  obtain ⟨rfl, rfl⟩ := pure_run h₆
  have hsub₂ : (G.addSprouts ys).sprouts ⊆ G₂.sprouts := hsprouts₂ ▸ List.Subset.refl _
  have hold : G₂.HoldsAll c.id rest :=
    hwork.mono (htable₂.trans rfl) (List.Subset.trans hsub hsub₂)
  refine ⟨G₂, hC₂, by rw [emit_run h₅, hdb₂], htable₂, List.Subset.trans hsub hsub₂, ?_⟩
  intro p hp k hk
  split at hp
  · exact hold p hp k hk
  rcases List.mem_append.1 hp with hp | hp
  · exact hold p hp k hk
  rw [List.mem_singleton.1 hp] at hk ⊢
  rcases mem_foldl_queue _ _ hk with hk | hk
  · exact absurd hk List.not_mem_nil
  · obtain ⟨y, hy, rfl⟩ := List.mem_map.1 hk
    exact .inr ⟨y, hsub₂ (List.mem_append_right _ hy), rfl, hys y hy⟩


/-- A round of key propagation grows the snapshot, dependent after dependent, each in a table of
the schema with a relationship that references the provider. -/
theorem propagateRound_grows (hg : db.Ground sid s) {pid : Id} {keys : List Id} :
    ∀ (deps : List (Id × Id)) (G : SchemaGrowth) (acc acc' : List (Id × List Id) × List (Id × Id) × Nat)
      (st st' : Session),
      (∀ d ∈ deps, ∃ t ∈ s.tables, t.id = d.1 ∧ ∃ r ∈ t.relationships, r.id = d.2 ∧ r.pkTableId = pid) →
      G.Creates s c → st.db = db.grownBy sid G →
      (∀ k ∈ keys, Sprout.Holds G.table c.id G.sprouts pid k) → G.HoldsAll c.id acc.1 →
      (deps.foldlM (propagateDependent sid pid keys) acc).run st = .ok acc' st' →
      ∃ G' : SchemaGrowth, G'.Creates s c ∧ st'.db = db.grownBy sid G' ∧ G'.table = G.table ∧
        G.sprouts ⊆ G'.sprouts ∧ G'.HoldsAll c.id acc'.1
  | [], G, acc, acc', st, st', _, hC, hst, _, hwork, h => by
    obtain ⟨rfl, rfl⟩ := pure_run h
    exact ⟨G, hC, hst, rfl, List.Subset.refl _, hwork⟩
  | (hid, rid) :: deps, G, acc, acc', st, st', hdeps, hC, hst, hkeys, hwork, h => by
    rw [List.foldlM_cons] at h
    obtain ⟨acc₁, st₁, h₁, h₂⟩ := run_bind_ok h
    obtain ⟨G₁, hC₁, hdb₁, htable₁, hsub₁, hwork₁⟩ :=
      propagateDependent_grows hg hC hst hkeys (hdeps _ List.mem_cons_self) hwork h₁
    obtain ⟨G₂, hC₂, hdb₂, htable₂, hsub₂, hwork₂⟩ := propagateRound_grows hg deps G₁ acc₁ acc' st₁ st'
      (fun d hd => hdeps d (List.mem_cons_of_mem _ hd)) hC₁ hdb₁
      (fun k hk => htable₁ ▸ (hkeys k hk).mono hsub₁) hwork₁ h₂
    exact ⟨G₂, hC₂, hdb₂, htable₂.trans htable₁, List.Subset.trans hsub₁ hsub₂, hwork₂⟩

/-- Key propagation grows the snapshot round after round, while every queued key column is held
by the table it is queued with: by induction on the fuel. -/
theorem propagateLoop_grows (hg : db.Ground sid s) :
    ∀ (fuel : Nat) (work : List (Id × List Id)) (visited : List (Id × Id)) (count : Nat)
      (G : SchemaGrowth) (st : Session) (n : Nat) (st' : Session),
      G.Creates s c → st.db = db.grownBy sid G → G.HoldsAll c.id work →
      (propagateLoop sid fuel work visited count).run st = .ok n st' →
      ∃ G' : SchemaGrowth, G'.Creates s c ∧ st'.db = db.grownBy sid G' ∧ G'.table = G.table
  | _, [], _, _, G, st, n, st', hC, hst, _, h => by
    rw [propagateLoop] at h
    obtain ⟨-, rfl⟩ := pure_run h
    exact ⟨G, hC, hst, rfl⟩
  | 0, (_, _) :: _, _, _, _, _, _, _, _, _, _, h => by
    rw [propagateLoop] at h
    obtain ⟨_, _, -, h₂⟩ := run_bind_ok h
    exact (throw_run h₂).elim
  | fuel + 1, (pid, keys) :: rest, visited, count, G, st, n, st', hC, hst, hwork, h => by
    rw [propagateLoop] at h
    obtain ⟨s₁, st₁, h₁, h₂⟩ := run_bind_ok h
    obtain ⟨hst₁, hs₁⟩ := schema_run h₁
    subst st₁
    rw [hst, Database.schema?_grownBy hg.schema, Option.some.injEq] at hs₁
    subst hs₁
    dsimp only at h₂
    obtain ⟨acc, st₂, h₃, h₄⟩ := run_bind_ok h₂
    have hdeps : ∀ d ∈ ((s.grow G).referencing pid).filter (fun r => r.isIdentifying && r.fkTableId ≠ pid)
        |>.map (fun r => (r.fkTableId, r.id)),
        ∃ t ∈ s.tables, t.id = d.1 ∧ ∃ r ∈ t.relationships, r.id = d.2 ∧ r.pkTableId = pid := by
      intro d hd
      obtain ⟨r, hr, rfl⟩ := List.mem_map.1 hd
      exact hg.home_of_mem_grow_referencing (List.mem_filter.1 hr).1
    obtain ⟨G₁, hC₁, hdb₁, htable₁, -, hwork₁⟩ := propagateRound_grows hg _ G _ acc st st₂ hdeps hC hst
      (hwork _ List.mem_cons_self) (fun p hp => hwork p (List.mem_cons_of_mem _ hp)) h₃
    obtain ⟨G₂, hC₂, hdb₂, htable₂⟩ := propagateLoop_grows hg fuel _ _ _ G₁ st₂ n st' hC₁ hdb₁ hwork₁ h₄
    exact ⟨G₂, hC₂, hdb₂, htable₂.trans htable₁⟩

/-- Copying new key columns of a table into its identifying dependents grows the snapshot. -/
theorem propagateKeys_grows (hg : db.Ground sid s) (hC : G.Creates s c)
    (hst : st.db = db.grownBy sid G) {pid : Id} {keys : List Id}
    (hkeys : ∀ k ∈ keys, Sprout.Holds G.table c.id G.sprouts pid k) {n : Nat}
    (h : (propagateKeys sid pid keys).run st = .ok n st') :
    ∃ G' : SchemaGrowth, G'.Creates s c ∧ st'.db = db.grownBy sid G' ∧ G'.table = G.table := by
  unfold propagateKeys at h
  obtain ⟨s₁, st₁, h₁, h₂⟩ := run_bind_ok h
  obtain ⟨hst₁, -⟩ := schema_run h₁
  subst st₁
  obtain ⟨count, st₂, h₃, h₄⟩ := run_bind_ok h₂
  obtain ⟨G', hC', hdb', htable'⟩ := propagateLoop_grows hg _ _ _ _ G st count st₂ hC hst
    (fun p hp => by rw [List.mem_singleton.1 hp]; exact hkeys) h₃
  have hdb : st'.db = st₂.db := by
    split at h₄
    · obtain ⟨u, st₃, h₅, h₆⟩ := run_bind_ok h₄
      obtain ⟨-, rfl⟩ := pure_run h₆
      exact emit_run h₅
    · obtain ⟨-, rfl⟩ := pure_run h₄
      rfl
  exact ⟨G', hC', hdb.trans hdb', htable'⟩


/-- The new column put in at its place in a table of the schema grows the snapshot by it. -/
theorem place_grows (hg : db.Ground sid s) {t : Table} (ht : t ∈ s.tables)
    (hc : ∀ u ∈ s.tables, c.id ∉ u.mentionedIds) (i : Nat) :
    db.updateTable sid t.id (fun u => ({ u with columns := insertAt u.columns i c } : Table).resequenceColumns) =
      db.grownBy sid { table := t.id, placed := some (i, c) } ∧
    ({ table := t.id, placed := some (i, c) } : SchemaGrowth).Creates s c := by
  have hpart : ∀ (p : Option (Nat × Column)) (u : Table),
      ({ table := t.id, placed := p } : SchemaGrowth).part u.id =
        if u.id = t.id then ({ placed := p } : TableGrowth) else {} := by
    intro p u
    unfold SchemaGrowth.part
    split <;> rfl
  have hempty : ∀ u ∈ s.tables,
      u.grow (({ table := t.id, placed := none } : SchemaGrowth).part u.id) = u := by
    intro u hu
    rw [hpart]
    split <;> exact Table.grow_of_columnIds_eq_nil (hg.settled u hu) TableGrowth.fits_empty rfl
  refine ⟨?_, ⟨⟨⟨fun u hu => ?_, ?_, List.nodup_singleton _, fun _ h => absurd h List.not_mem_nil⟩,
    ⟨t, ht, rfl⟩, ⟨i, rfl⟩, .nil⟩,
    fun u _ => ?_⟩⟩
  · conv_lhs => rw [← Database.grownBy_eq_self hg.schema hempty]
    refine hg.updateTable_grownBy ht (fun u _ hid => by rw [hpart, hpart, if_neg hid, if_neg hid]) ?_
    rw [hempty t ht, hpart, if_pos rfl]
    exact Table.grow_placeColumn (hg.settled t ht) i c
  · rw [hpart]
    split
    · exact TableGrowth.fits_place (hc u hu)
    · exact TableGrowth.fits_empty
  · intro x hx
    simp only [SchemaGrowth.columnIds, Option.toList_some, List.map_cons, List.map_nil,
      List.singleton_append, List.mem_singleton] at hx
    exact hx ▸ hc
  · rw [hpart]
    have hbare : ∀ p : Option (Nat × Column), TableGrowth.Keyed { placed := p } u := fun _ =>
      ⟨fun _ h => absurd h List.not_mem_nil,
        fun h => by obtain ⟨_, hk, _⟩ := h; exact absurd hk List.not_mem_nil, fun h => absurd rfl h⟩
    split
    · exact hbare _
    · exact hbare none

/-- A key column joining the key of its table and propagating grows the snapshot, when the
column is added to that table and has no key entry yet. -/
theorem keyColumn_grows (hg : db.Ground sid s) (hC : G.Creates s c) (hst : st.db = db.grownBy sid G)
    (hpl : c.id ∈ (G.part G.table).columnIds) (hke : c.id ∉ (G.part G.table).keyEntries.map (·.columnId))
    {b : Bool} {u : Unit}
    (h : (if b = true then (do
        addToPrimaryKey sid G.table [c.id]
        let _ ← propagateKeys sid G.table [c.id]
        pure ()) else pure ()).run st = .ok u st') :
    ∃ G' : SchemaGrowth, G'.Creates s c ∧ st'.db = db.grownBy sid G' ∧ G'.table = G.table := by
  split at h
  · obtain ⟨_, st₁, h₁, h₂⟩ := run_bind_ok h
    obtain ⟨G₁, hC₁, hdb₁, htable₁, hsprouts₁⟩ := addToPrimaryKey_grows hg hC hst
      (fun x hx => (List.mem_singleton.1 hx) ▸ ⟨hpl, hke⟩) (List.nodup_singleton _) (List.cons_ne_nil _ _) h₁
    obtain ⟨n, st₂, h₃, h₄⟩ := run_bind_ok h₂
    obtain ⟨-, rfl⟩ := pure_run h₄
    obtain ⟨G₂, hC₂, hdb₂, htable₂⟩ := propagateKeys_grows hg hC₁ hdb₁
      (fun k hk => .inl ⟨List.mem_singleton.1 hk, htable₁.symm⟩) h₃
    exact ⟨G₂, hC₂, hdb₂, htable₂.trans htable₁⟩
  · obtain ⟨-, rfl⟩ := pure_run h
    exact ⟨G, hC, hst, rfl⟩


/-- On an accepted snapshot whose tables of the schema are tidy, a successful `createColumn`
leaves the snapshot grown by a growth from the new column, in the table it was created in. -/
theorem createColumn_grows (hv : db.validate = .ok ()) (hs : s ∈ db.schemas)
    (htidy : ∀ t ∈ s.tables, t.Tidy) (hst : st.db = db) {tid : Id} {d : ColumnDraft} {u : Unit}
    (h : (createColumn s.id tid d).run st = .ok u st') :
    ∃ (c : Column) (G : SchemaGrowth), c.id = d.id ∧ G.table = tid ∧ G.Creates s c ∧
      st'.db = db.grownBy s.id G := by
  have hg := Database.ground_of_validate hv hs htidy
  unfold createColumn at h
  obtain ⟨s₁, st₁, h₁, h₂⟩ := run_bind_ok h
  obtain ⟨hst₁, hs₁⟩ := schema_run h₁
  subst st₁
  rw [hst, hg.schema, Option.some.injEq] at hs₁
  subst hs₁
  obtain ⟨_, st₂, h₃, h₄⟩ := run_bind_ok h₂
  obtain ⟨hst₂, -⟩ := checkColumnName_run h₃
  subst st₂
  obtain ⟨_, st₃, h₅, h₆⟩ := run_bind_ok h₄
  obtain ⟨hst₃, hfresh⟩ := ensureFreshId_run h₅
  subst st₃
  obtain ⟨_, st₄, h₇, h₈⟩ := run_bind_ok h₆
  obtain ⟨hst₄, -⟩ := check_run h₇
  subst st₄
  obtain ⟨t₀, st₅, h₉, h₁₀⟩ := run_bind_ok h₈
  obtain ⟨hst₅, ht₀⟩ := table_run h₉
  subst st₅
  obtain ⟨st₆, hdb₆, h₁₁⟩ := run_ite_guard (keeps_check _) h₁₀
  obtain ⟨st₇, hdb₇, h₁₂⟩ := run_ite_guard (Keeps.throw _) h₁₁
  obtain ⟨nn, st₈, hdb₈, h₁₃⟩ := run_ite_bind (Keeps.pure _)
    (Keeps.map _ (keeps_freshConstraintName _ _ : Keeps Eq _)) h₁₂
  obtain ⟨_, st₉, h₁₄, h₁₅⟩ := run_bind_ok h₁₃
  obtain ⟨hdb₉, -⟩ := modifyTable_run h₁₄
  -- the new column is placed in its table, mentioned nowhere before
  obtain ⟨s', hs', ht₀'⟩ := ht₀
  rw [hst, hg.schema, Option.some.injEq] at hs'
  subst hs'
  have ht := List.mem_of_find?_eq_some ht₀'
  obtain rfl : t₀.id = tid := by simpa using List.find?_some ht₀'
  clear h h₂ h₄ h₆ h₈ h₁₀ h₁₁ h₁₂ h₁₃
  have hc : ∀ u ∈ s.tables, d.id ∉ u.mentionedIds := fun u hu =>
    Database.not_mem_mentionedIds hv hs hu (hst ▸ hfresh)
  let c : Column := ⟨d.id, t₀.id, d.name, d.position.getD (t₀.columns.length + 1), d.dataType,
    d.lengthScale, d.autoIncrement, d.charset, d.collation, d.comment⟩
  let G₀ : SchemaGrowth :=
    { table := t₀.id, placed := some (d.position.getD (t₀.columns.length + 1) - 1, c) }
  obtain ⟨hplace, hC₀⟩ := place_grows (c := c) hg ht hc (d.position.getD (t₀.columns.length + 1) - 1)
  have hdb₀ : st₉.db = db.grownBy s.id G₀ := by
    rw [hdb₉, hdb₈, hdb₇, hdb₆, hst]
    exact hplace
  have hpl₀ : c.id ∈ (G₀.part G₀.table).columnIds := by simp [G₀, SchemaGrowth.part, TableGrowth.columnIds]
  have hke₀ : (G₀.part G₀.table).keyEntries = [] := by simp [G₀, SchemaGrowth.part]
  dsimp only at h₁₅
  split at h₁₅
  · obtain ⟨k, st₁₀, h₁₆, h₁₇⟩ := run_bind_ok h₁₅
    obtain ⟨hdb₁₀, id, eid, hk⟩ := reads_notNullConstraint_shape _ _ _ _ _ _ h₁₆
    have hkind : k.kind = .notNull := by rw [hk]
    have hcols : k.columns = [⟨eid, d.id, 1⟩] := by rw [hk]
    obtain ⟨_, st₁₁, h₁₈, h₁₉⟩ := run_bind_ok h₁₇
    obtain ⟨hdb₁₁, -⟩ := modifyTable_run h₁₈
    have hpart₁ : (G₀.addConstraint t₀.id k).part t₀.id = _ := SchemaGrowth.part_addConstraint_self k
    have hother : ∀ u ∈ s.tables, u.id ≠ t₀.id → (G₀.addConstraint t₀.id k).part u.id = G₀.part u.id :=
      fun u _ hid => SchemaGrowth.part_addConstraint_of_ne (Ne.symm hid) k
    have hC₁ : (G₀.addConstraint t₀.id k).Creates s c := by
      refine hC₀.change_part hg.tableIds ht rfl rfl rfl hother ?_ ?_
      · rw [hpart₁]
        refine (hC₀.growth.fits.parts t₀ ht).addConstraint (.inl hkind)
          (by simp [SchemaGrowth.part]) (fun e he => ?_) (by rw [hcols]; rfl)
        rw [hcols, List.mem_singleton] at he
        exact he ▸ hpl₀
      · rw [hpart₁]
        exact (hC₀.keyed t₀ ht).addNotNull hkind
    have hdb₁ : st₁₁.db = db.grownBy s.id (G₀.addConstraint t₀.id k) := by
      rw [hdb₁₁, hdb₁₀, hdb₀]
      refine hg.updateTable_grownBy ht hother ?_
      rw [hpart₁]
      exact Table.grow_appendConstraint (by rw [hkind]; decide) (by rw [hcols]; exact List.cons_ne_nil _ _)
    obtain ⟨G', hC', hdb', htable'⟩ := keyColumn_grows hg hC₁ hdb₁ hpl₀
      (by simp [G₀, SchemaGrowth.part, SchemaGrowth.addConstraint]) h₁₉
    exact ⟨c, G', rfl, htable', hC', hdb'⟩
  · obtain ⟨G', hC', hdb', htable'⟩ := keyColumn_grows hg hC₀ hdb₀ hpl₀ (by rw [hke₀]; exact List.not_mem_nil) h₁₅
    exact ⟨c, G', rfl, htable', hC', hdb'⟩

end Creation

end EditM

end SchemaDesign
