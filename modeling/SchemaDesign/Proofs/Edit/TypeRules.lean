import SchemaDesign.Proofs.Edit.Retype
import SchemaDesign.Editor

/-!
# The type rules after a change of type

Four rules keep the column types of a snapshot consistent: every column type suits its schema's
vendor, every mapping joins columns of suiting types (`typesCompatible`), every auto-increment
column has an integer type of the vendor, and no table has two auto-increment columns.
Validation checks the first two; the editor is left to keep the last two.

Main statement `Editor.apply_changeColumnType_types`: changing a column's type in a valid
snapshot that keeps the auto-increment rules keeps the vendor rule and the one-per-table rule.
The other two rules hold everywhere except at the columns the new type is mirrored into: an
auto-increment column fed from the changed one may lose its integer type, and a mapping from a
fed column onto a column the change did not reach may lose its compatibility. Both happen
(`Editor.changeColumnType_breaks_fed_column`).
-/

namespace SchemaDesign

/-- A table has at most one auto-increment column. -/
def Table.OneAutoIncrement (t : Table) : Prop := (t.columns.filter (·.isAutoIncrement)).length ≤ 1

/-- An auto-increment column has an integer type of the vendor. -/
def Column.AutoIncrementInteger (vendor : Vendor) (c : Column) : Prop :=
  c.isAutoIncrement = true → c.dataType.any vendor.isIntegerType = true

/-- The auto-increment rules of a snapshot: in each table at most one auto-increment column, and
each of an integer type of its schema's vendor. -/
def Database.AutoIncrementSound (db : Database) : Prop :=
  ∀ s ∈ db.schemas, ∀ t ∈ s.tables, t.OneAutoIncrement ∧ ∀ c ∈ t.columns, c.AutoIncrementInteger s.vendor

instance (t : Table) : Decidable t.OneAutoIncrement := inferInstanceAs (Decidable (_ ≤ _))

instance (vendor : Vendor) (c : Column) : Decidable (c.AutoIncrementInteger vendor) :=
  inferInstanceAs (Decidable (_ → _))

instance (db : Database) : Decidable db.AutoIncrementSound :=
  inferInstanceAs (Decidable (∀ s ∈ db.schemas, ∀ t ∈ s.tables, _))

/-- Columns of the same type and descriptor suit each other. -/
theorem typesCompatible_of_eq {fk pk : Column} (hd : fk.dataType = pk.dataType)
    (hl : fk.lengthScale = pk.lengthScale) : typesCompatible fk pk = true := by
  unfold typesCompatible
  rw [hd, hl]
  split <;> simp_all [eqIgnoreAsciiCase]

/-- A candidate the reference check passes suits every column its mappings reference. -/
theorem Schema.typesCompatible_of_incompatibleReference? {s : Schema} {holder : Table}
    {cand : Column} (h : s.incompatibleReference? holder cand = none) {r : Relationship}
    (hr : r ∈ holder.relationships) {m : KeyMapping} (hm : m ∈ r.columns)
    (hfk : m.fkColumnId = cand.id) {p : Table} (hp : s.table? r.pkTableId = some p) {pk : Column}
    (hpk : p.column? m.pkColumnId = some pk) : typesCompatible cand pk = true := by
  unfold incompatibleReference? at h
  rw [List.find?_eq_none] at h
  have hmem : pk ∈ holder.relationships.flatMap fun r =>
      (r.columns.filter (·.fkColumnId = cand.id)).filterMap fun m =>
        (s.table? r.pkTableId).bind (·.column? m.pkColumnId) :=
    List.mem_flatMap.2 ⟨r, hr, List.mem_filterMap.2
      ⟨m, List.mem_filter.2 ⟨hm, by simp [hfk]⟩, by simp [hp, hpk]⟩⟩
  simpa using h pk hmem

/-- Retyping keeps the auto-increment flags, so the count of auto-increment columns. -/
theorem Table.RetypedAt.oneAutoIncrement {dt : Option String} {ls : Option LengthScale}
    {S : Id × Id → Prop} {t t' : Table} (h : t.RetypedAt dt ls S t') (ht : t.OneAutoIncrement) :
    t'.OneAutoIncrement := by
  have hflags : t'.columns.map (·.isAutoIncrement) = t.columns.map (·.isAutoIncrement) :=
    forall₂_map_eq h.2 fun _ _ hc => by rcases hc with rfl | ⟨rfl, -⟩ <;> rfl
  have hcount := congrArg (fun l : List Bool => (l.filter fun b => b).length) hflags
  simp only [List.filter_map, List.length_map] at hcount
  unfold Table.OneAutoIncrement
  exact hcount ▸ ht

/-! ## Lookups in a snapshot with distinct ids -/

namespace Database

variable {db : Database}

theorem schema?_of_mem (hn : (db.labelledIds.map (·.2)).Nodup) {s : Schema} (hs : s ∈ db.schemas) :
    db.schema? s.id = some s :=
  find?_key_eq_of_mem (schemaIds_nodup hn) hs

theorem findsTable_of_mem (hn : (db.labelledIds.map (·.2)).Nodup) {s : Schema} (hs : s ∈ db.schemas)
    {t : Table} (ht : t ∈ s.tables) : db.FindsTable s.id t.id t :=
  ⟨s, schema?_of_mem hn hs, Schema.table?_of_mem (tableIds_nodup hn hs) ht⟩

theorem column?_of_mem (hn : (db.labelledIds.map (·.2)).Nodup) {s : Schema} (hs : s ∈ db.schemas)
    {t : Table} (ht : t ∈ s.tables) {c : Column} (hc : c ∈ t.columns) : t.column? c.id = some c :=
  find?_key_eq_of_mem (columnIds_nodup hn hs ht) hc

end Database

/-! ## Each rule after retyping -/

namespace Database.RetypedAt

variable {sid : Id} {dt : Option String} {ls : Option LengthScale} {S : Id × Id → Prop}
  {db db' : Database}

/-- Each table of the second snapshot is a table of the first, retyped, in a schema with the same
id and vendor, whose lookups find retyped tables. -/
theorem exists_table (h : db.RetypedAt sid dt ls S db') {s' : Schema} (hs' : s' ∈ db'.schemas)
    {t' : Table} (ht' : t' ∈ s'.tables) :
    ∃ s ∈ db.schemas, s'.id = s.id ∧ s'.vendor = s.vendor ∧
      ∃ t ∈ s.tables, t.RetypedAt dt ls (fun p => s.id = sid ∧ S p) t' ∧
        ∀ x p, s'.table? x = some p →
          ∃ p₀, s.table? x = some p₀ ∧ p₀.RetypedAt dt ls (fun p => s.id = sid ∧ S p) p := by
  obtain ⟨s, hs, hss', htables⟩ := forall₂_exists_of_mem_right h.2 hs'
  obtain ⟨t, ht, htt'⟩ := forall₂_exists_of_mem_right htables ht'
  refine ⟨s, hs, by rw [hss'], by rw [hss'], t, ht, htt', fun x p hp => ?_⟩
  exact forall₂_find? (fun _ _ h => by rw [h.id_eq]) htables hp

/-- Retyping to a type the vendor of the schema accepts keeps every column type accepted. -/
theorem checkDataType (hv : db.validate = .ok ()) (h : db.RetypedAt sid dt ls S db')
    (hty : ∀ s ∈ db.schemas, s.id = sid → SchemaDesign.checkDataType s.vendor dt ls = .ok ()) :
    ∀ s' ∈ db'.schemas, ∀ t' ∈ s'.tables, ∀ c ∈ t'.columns,
      SchemaDesign.checkDataType s'.vendor c.dataType c.lengthScale = .ok () := by
  intro s' hs' t' ht' c' hc'
  obtain ⟨s, hs, -, hvendor, t, ht, htt', -⟩ := h.exists_table hs' ht'
  obtain ⟨c, hc, hcc'⟩ := forall₂_exists_of_mem_right htt'.2 hc'
  rw [hvendor]
  rcases hcc' with rfl | ⟨rfl, hsid, -⟩
  · exact Database.checkDataType_of_validate hv hs ht _ hc
  · exact hty s hs hsid

theorem oneAutoIncrement (hauto : db.AutoIncrementSound) (h : db.RetypedAt sid dt ls S db') :
    ∀ s' ∈ db'.schemas, ∀ t' ∈ s'.tables, t'.OneAutoIncrement := by
  intro s' hs' t' ht'
  obtain ⟨s, hs, -, -, t, ht, htt', -⟩ := h.exists_table hs' ht'
  exact htt'.oneAutoIncrement (hauto s hs t ht).1

/-! ## The rules the mirrored columns may break

From here on the columns retyped are those a change at column `cid` of table `tid` reaches in
schema `s`: the column itself, checked, and the columns it feeds, not checked. -/

variable {s : Schema} {tid cid : Id}

/-- After retyping the columns a change reaches, an auto-increment column has an integer type
unless the change was mirrored into it; the changed column itself passed the check. -/
theorem autoIncrementInteger (hauto : db.AutoIncrementSound)
    (h : db.RetypedAt sid dt ls (s.Mirrored (tid, cid)) db')
    (htarget : ∀ s₀ ∈ db.schemas, s₀.id = sid → ∀ t ∈ s₀.tables, t.id = tid → ∀ c ∈ t.columns,
      c.id = cid → (c.retype dt ls).AutoIncrementInteger s₀.vendor) :
    ∀ s' ∈ db'.schemas, ∀ t' ∈ s'.tables, ∀ c ∈ t'.columns,
      c.AutoIncrementInteger s'.vendor ∨ s'.id = sid ∧ s.FeedsType (tid, cid) (t'.id, c.id) := by
  intro s' hs' t' ht' c' hc'
  obtain ⟨s₀, hs₀, hid, hvendor, t, ht, htt', -⟩ := h.exists_table hs' ht'
  obtain ⟨c, hc, hcc'⟩ := forall₂_exists_of_mem_right htt'.2 hc'
  rw [hvendor]
  rcases hcc' with rfl | ⟨rfl, hsid, hreach | hfeeds⟩
  · exact .inl ((hauto s₀ hs₀ t ht).2 _ hc)
  · -- the changed column
    obtain ⟨htid, hcid⟩ := Prod.mk.inj hreach
    exact .inl (htarget s₀ hs₀ hsid t ht htid c hc hcid)
  · refine .inr ⟨hid.trans hsid, ?_⟩
    rw [htt'.id_eq]
    exact hfeeds

/-- After retyping, every mapping joins columns of suiting types unless the change was mirrored
into its column and did not reach the column it references. -/
theorem typesCompatible (hv : db.validate = .ok ()) (hs : db.schema? sid = some s)
    (h : db.RetypedAt sid dt ls (s.Mirrored (tid, cid)) db')
    (htyped : ∀ q, s.Mirrored (tid, cid) q → db'.TypedAt sid dt ls q)
    (htarget : ∀ t ∈ s.tables, t.id = tid → ∀ c ∈ t.columns, c.id = cid →
      s.incompatibleReference? t (c.retype dt ls) = none) :
    ∀ s' ∈ db'.schemas, ∀ t' ∈ s'.tables, ∀ r ∈ t'.relationships, ∀ m ∈ r.columns, ∀ p fk pk,
      s'.table? r.pkTableId = some p → t'.column? m.fkColumnId = some fk →
      p.column? m.pkColumnId = some pk →
      SchemaDesign.typesCompatible fk pk = true ∨
        s'.id = sid ∧ s.FeedsType (tid, cid) (t'.id, fk.id) ∧ ¬s.Mirrored (tid, cid) (p.id, pk.id) := by
  intro s' hs' t' ht' r hr m hm p fk pk hp hfk hpk
  have hn := Database.labelledIds_nodup_of_validate hv
  have hn' : (db'.labelledIds.map (·.2)).Nodup := by rw [h.labelledIds_eq]; exact hn
  obtain ⟨s₀, hs₀, hid, -, t, ht, htt', hfind⟩ := h.exists_table hs' ht'
  obtain ⟨p₀, hp₀, hpp⟩ := hfind _ _ hp
  rw [htt'.relationships_eq] at hr
  obtain ⟨fk₀, hfk₀, hfkfk⟩ := htt'.column? hfk
  obtain ⟨pk₀, hpk₀, hpkpk⟩ := hpp.column? hpk
  have hfkid : fk₀.id = m.fkColumnId := by simpa using List.find?_some hfk₀
  have hpkid : pk₀.id = m.pkColumnId := by simpa using List.find?_some hpk₀
  have hpid : p₀.id = r.pkTableId := by simpa using List.find?_some hp₀
  have hschema : s₀.id = sid → s₀ = s := fun hsid => by
    rw [← hsid, Database.schema?_of_mem hn hs₀, Option.some.injEq] at hs
    exact hs
  -- the mapping's column takes its type from the column it references
  have hdep : s₀.id = sid → (t.id, fk₀.id) ∈ s.typeDependents (p₀.id, pk₀.id) := fun hsid => by
    subst hsid
    rw [← hschema rfl]
    refine Schema.mem_typeDependents.2 ⟨r, ?_, m, hm, hpkid.symm, ?_⟩
    · exact List.mem_filter.2 ⟨List.mem_flatMap.2 ⟨t, ht, hr⟩, by simpa using hpid.symm⟩
    · rw [Database.fkTableId_of_validate hv hs₀ ht hr, hfkid]
  have hfinds : s'.id = sid → db'.FindsTable sid t.id t' ∧ db'.FindsTable sid p₀.id p := fun hsid => by
    have hs'₁ := Database.schema?_of_mem hn' hs'
    rw [hsid] at hs'₁
    refine ⟨?_, ⟨s', hs'₁, by rw [hpid]; exact hp⟩⟩
    have ht'₁ := Database.findsTable_of_mem hn' hs' ht'
    rwa [hsid, htt'.id_eq] at ht'₁
  have hfk' : t'.column? fk₀.id = some fk := by rw [hfkid]; exact hfk
  have hpk' : p.column? pk₀.id = some pk := by rw [hpkid]; exact hpk
  rcases hfkfk with hfkeq | ⟨hfkeq, hsid, hfkM⟩ <;> subst fk <;>
    rcases hpkpk with hpkeq | ⟨hpkeq, hsid', hpkM⟩ <;> subst pk
  · exact .inl (Database.typesCompatible_of_validate hv hs₀ ht hr hp₀ m hm _ _ hfk₀ hpk₀)
  · -- the referenced column was reached, so the mirroring retyped the mapping's column too
    have hT := htyped _ (.inr (hpkM.feedsType (hdep hsid')))
      t' (hfinds (hid.trans hsid')).1 _ hfk'
    exact .inl (typesCompatible_of_eq (by simp [hT.1]) (by simp [hT.2]))
  · by_cases hpkM : s.Mirrored (tid, cid) (p₀.id, pk₀.id)
    · have hT := htyped _ hpkM p (hfinds (hid.trans hsid)).2 _ hpk'
      exact .inl (typesCompatible_of_eq (by simp [hT.1]) (by simp [hT.2]))
    rcases hfkM with hreach | hfeeds
    · -- the changed column itself: the reference check passed
      obtain ⟨htid, hcid⟩ := Prod.mk.inj hreach
      have hss := hschema hsid
      subst hss
      refine .inl (Schema.typesCompatible_of_incompatibleReference?
        (htarget t ht htid fk₀ (List.mem_of_find?_eq_some hfk₀) hcid) hr hm hfkid.symm hp₀ hpk₀)
    · refine .inr ⟨hid.trans hsid, by rw [htt'.id_eq]; exact hfeeds, ?_⟩
      rw [hpp.id_eq]
      exact hpkM
  · exact .inl (typesCompatible_of_eq rfl rfl)

end Database.RetypedAt

/-! ## Changing a column's type -/

/-- A change of type keeps every column type accepted for its vendor and one auto-increment
column per table at most; the type rules break only where the new type was mirrored. -/
theorem Editor.apply_changeColumnType_types {config : EditorConfig} {supply : IdSupply}
    {db db' : Database} {sid tid cid : Id} {dt : Option String} {ls : Option LengthScale}
    {s : Schema} (hv : db.validate = .ok ()) (hauto : db.AutoIncrementSound)
    (hs : db.schema? sid = some s)
    (happ : (Editor.apply config supply db (.changeColumnType sid tid cid dt ls)).result = .ok db') :
    ∀ s' ∈ db'.schemas, ∀ t' ∈ s'.tables,
      (∀ c ∈ t'.columns, checkDataType s'.vendor c.dataType c.lengthScale = .ok ()) ∧
      t'.OneAutoIncrement ∧
      (∀ c ∈ t'.columns, c.AutoIncrementInteger s'.vendor ∨
        s'.id = sid ∧ s.FeedsType (tid, cid) (t'.id, c.id)) ∧
      (∀ r ∈ t'.relationships, ∀ m ∈ r.columns, ∀ p fk pk, s'.table? r.pkTableId = some p →
        t'.column? m.fkColumnId = some fk → p.column? m.pkColumnId = some pk →
        typesCompatible fk pk = true ∨
          s'.id = sid ∧ s.FeedsType (tid, cid) (t'.id, fk.id) ∧ ¬s.Mirrored (tid, cid) (p.id, pk.id)) := by
  unfold Editor.apply at happ
  split at happ
  next st hrun =>
    cases happ
    obtain ⟨hR, htyped, hty, t₀, c₀, ht₀, hc₀, hauto₀, hcompat₀⟩ := EditM.changeColumnType_spec hs hrun
    have hn := Database.labelledIds_nodup_of_validate hv
    -- the schema `sid` is `s`, and the column found by the ids `tid` and `cid` is the one checked
    have hschema : ∀ s₁ ∈ db.schemas, s₁.id = sid → s₁ = s := fun s₁ hs₁ hsid => by
      have hs₁' := Database.schema?_of_mem hn hs₁
      rwa [hsid, hs, Option.some.injEq, eq_comm] at hs₁'
    have hchecked : ∀ t ∈ s.tables, t.id = tid → ∀ c ∈ t.columns, c.id = cid → t = t₀ ∧ c = c₀ := by
      intro t ht htid c hc hcid
      have hsm : s ∈ db.schemas := List.mem_of_find?_eq_some hs
      have htt₀ : t = t₀ := by
        have ht' := Database.findsTable_of_mem hn hsm ht
        have hsid : s.id = sid := by simpa using List.find?_some hs
        rw [hsid, htid] at ht'
        exact ht'.unique ht₀
      subst htt₀
      have hc' := Database.column?_of_mem hn hsm ht hc
      rw [hcid, hc₀, Option.some.injEq] at hc'
      exact ⟨rfl, hc'.symm⟩
    intro s' hs' t' ht'
    refine ⟨hR.checkDataType hv (fun s₁ hs₁ hsid => hschema s₁ hs₁ hsid ▸ hty) s' hs' t' ht',
      hR.oneAutoIncrement hauto s' hs' t' ht',
      hR.autoIncrementInteger hauto (fun s₁ hs₁ hsid t ht htid c hc hcid => ?_) s' hs' t' ht',
      hR.typesCompatible hv hs htyped (fun t ht htid c hc hcid => ?_) s' hs' t' ht'⟩
    · obtain rfl := hschema s₁ hs₁ hsid
      obtain ⟨rfl, rfl⟩ := hchecked t ht htid c hc hcid
      exact hauto₀
    · obtain ⟨rfl, rfl⟩ := hchecked t ht htid c hc hcid
      exact hcompat₀
  next => cases happ

/-- Tables `p` and `q`, keyed by their integer columns `p1` and `q1`, and `h`, whose one column
`f`, an auto-increment integer, references both `p1` (through `r1`) and `q1` (through `r2`). -/
def sharedAutoColumn : Database :=
  ⟨⟨"db"⟩, [⟨⟨"s"⟩, ⟨"db"⟩, "s", .mysql, none, none, [
    ⟨⟨"p"⟩, ⟨"s"⟩, "p", none, [⟨⟨"p1"⟩, ⟨"p"⟩, "p1", 1, some "INT", none, false, none, none, none⟩],
      [], [⟨⟨"kp"⟩, ⟨"p"⟩, "pk_p", .primaryKey, none, none, [⟨⟨"kp1"⟩, ⟨"p1"⟩, 1⟩]⟩], []⟩,
    ⟨⟨"q"⟩, ⟨"s"⟩, "q", none, [⟨⟨"q1"⟩, ⟨"q"⟩, "q1", 1, some "INT", none, false, none, none, none⟩],
      [], [⟨⟨"kq"⟩, ⟨"q"⟩, "pk_q", .primaryKey, none, none, [⟨⟨"kq1"⟩, ⟨"q1"⟩, 1⟩]⟩], []⟩,
    ⟨⟨"h"⟩, ⟨"s"⟩, "h", none, [⟨⟨"f"⟩, ⟨"h"⟩, "f", 1, some "INT", none, true, none, none, none⟩], [], [],
      [⟨⟨"r1"⟩, ⟨"h"⟩, ⟨"p"⟩, "r1", .nonIdentifying, .oneToMany, .noAction, .noAction,
        [⟨⟨"m1"⟩, ⟨"f"⟩, ⟨"p1"⟩, 1⟩]⟩,
       ⟨⟨"r2"⟩, ⟨"h"⟩, ⟨"q"⟩, "r2", .nonIdentifying, .oneToMany, .noAction, .noAction,
        [⟨⟨"m2"⟩, ⟨"f"⟩, ⟨"q1"⟩, 1⟩]⟩]⟩]⟩]⟩

/-- Changing `p1` of `p` to `VARCHAR(10)`. -/
def p1ToVarchar : Operation :=
  .changeColumnType ⟨"s"⟩ ⟨"p"⟩ ⟨"p1"⟩ (some "VARCHAR") (some (.length 10))

theorem Editor.sharedAutoColumn_changeColumnType_types :
    sharedAutoColumn.validate = .ok () ∧ sharedAutoColumn.AutoIncrementSound ∧
      ∃ s, sharedAutoColumn.schema? ⟨"s"⟩ = some s ∧
        ∃ db', (Editor.apply {} { seed := 0 } sharedAutoColumn p1ToVarchar).result = .ok db' ∧
          ∀ s' ∈ db'.schemas, ∀ t' ∈ s'.tables,
            (∀ c ∈ t'.columns, checkDataType s'.vendor c.dataType c.lengthScale = .ok ()) ∧
            t'.OneAutoIncrement ∧
            (∀ c ∈ t'.columns, c.AutoIncrementInteger s'.vendor ∨
              s'.id = ⟨"s"⟩ ∧ s.FeedsType (⟨"p"⟩, ⟨"p1"⟩) (t'.id, c.id)) ∧
            (∀ r ∈ t'.relationships, ∀ m ∈ r.columns, ∀ p fk pk, s'.table? r.pkTableId = some p →
              t'.column? m.fkColumnId = some fk → p.column? m.pkColumnId = some pk →
              typesCompatible fk pk = true ∨
                s'.id = ⟨"s"⟩ ∧ s.FeedsType (⟨"p"⟩, ⟨"p1"⟩) (t'.id, fk.id) ∧
                  ¬s.Mirrored (⟨"p"⟩, ⟨"p1"⟩) (p.id, pk.id)) := by
  have hv : sharedAutoColumn.validate = .ok () := by rfl
  have hauto : sharedAutoColumn.AutoIncrementSound := by decide
  obtain ⟨db', happ⟩ :
      ∃ db', (Editor.apply {} { seed := 0 } sharedAutoColumn p1ToVarchar).result = .ok db' :=
    ⟨_, rfl⟩
  exact ⟨hv, hauto, _, rfl, db', happ, Editor.apply_changeColumnType_types hv hauto rfl happ⟩

/-- Mirroring `VARCHAR(10)` from `p1` into `f` breaks both rules left to the editor: validation
refuses the mapping from `f` onto `q1`, and `f` is an auto-increment column of a text type. -/
theorem Editor.changeColumnType_breaks_fed_column :
    sharedAutoColumn.validate = .ok () ∧ sharedAutoColumn.AutoIncrementSound ∧
      ∃ db', (Editor.apply {} { seed := 0 } sharedAutoColumn p1ToVarchar).result = .ok db' ∧
        db'.validate = .error (.relationshipColumnTypeIncompatible "f" "q1") ∧
        ¬db'.AutoIncrementSound :=
  ⟨by rfl, by decide, _, rfl, by rfl, by decide⟩

end SchemaDesign
