import SchemaDesign.Proofs.Edit.Growth
import SchemaDesign.Proofs.Graph.Layered

/-!
# Schemas grown by one new column

Creating a column changes one schema. Its table gets the column, maybe a NOT_NULL constraint and
an entry in the key (or a key made for it), and key propagation adds holder columns, each with
the mapping that ties it to a key column of its provider, to the tables below. A `SchemaGrowth`
lists all of it with the table each part belongs to; `SchemaGrowth.part` is the part of one
table, and `Database.grownBy db sid G` is the snapshot with every table of schema `sid` grown by
its part (`Table.grow`).

The holder columns form a forest rooted at the new column (`Sprout.Rooted`): each maps the new
column, or a holder column added before it, held by its provider. Taking added columns away
commutes with taking a table's part (`SchemaGrowth.part_without`), so every state of the removal
cascade is a grown snapshot too, and one with nothing left is the snapshot itself
(`Database.grownBy_eq_self`).
-/

namespace SchemaDesign

/-! ## Lists changed at their first match -/

section UpdateFirst

variable {α : Type} {p : α → Bool}

theorem updateFirst_updateFirst {f g : α → α} (hf : ∀ x, p (f x) = p x) :
    ∀ xs : List α, updateFirst p g (updateFirst p f xs) = updateFirst p (fun x => g (f x)) xs
  | [] => rfl
  | x :: xs => by
    by_cases hx : p x
    · simp [updateFirst, hx, hf]
    · simp [updateFirst, hx, updateFirst_updateFirst hf xs]

/-- Two changes that agree on the first match change the list alike. -/
theorem updateFirst_congr_of_find? {f g : α → α} {x : α} (h : f x = g x) :
    ∀ {xs : List α}, xs.find? p = some x → updateFirst p f xs = updateFirst p g xs
  | [], hx => by simp at hx
  | y :: ys, hx => by
    by_cases hy : p y
    · rw [List.find?_cons_of_pos hy, Option.some.injEq] at hx
      subst hx
      simp [updateFirst, hy, h]
    · rw [List.find?_cons_of_neg hy] at hx
      simp [updateFirst, hy, updateFirst_congr_of_find? h hx]

theorem updateFirst_self : ∀ xs : List α, updateFirst p (fun x => x) xs = xs
  | [] => rfl
  | x :: xs => by
    by_cases hx : p x
    · simp [updateFirst, hx]
    · simp [updateFirst, hx, updateFirst_self xs]

end UpdateFirst

/-! ## Holder columns added by propagation -/

/-- A holder column that key propagation added to table `table`, with the mapping, in the
relationship `relationship` from `provider`, that ties it to the provider's key column `key`. -/
structure Sprout where
  table : Id
  provider : Id
  relationship : Id
  mappingId : Id
  key : Id
  column : Column

namespace Sprout

/-- The mapping the holder column was added with, numbered when it is placed. -/
def mapping (y : Sprout) : KeyMapping := ⟨y.mappingId, y.column.id, y.key, 0⟩

/-- Table `P` holds the added column `k`: `k` is the new column `cid` of table `T`, or one of
the holder columns `ys`. -/
def Holds (T cid : Id) (ys : List Sprout) (P k : Id) : Prop :=
  (k = cid ∧ P = T) ∨ ∃ p ∈ ys, p.column.id = k ∧ p.table = P

/-- Holder columns added in order, each mapping a column its provider holds: the new column or a
holder column added before it. -/
inductive Rooted (T cid : Id) : List Sprout → Prop
  | nil : Rooted T cid []
  | snoc {ys : List Sprout} {y : Sprout} : Rooted T cid ys → Holds T cid ys y.provider y.key →
      Rooted T cid (ys ++ [y])

variable {T cid : Id} {ys : List Sprout}

theorem Holds.mono {ys' : List Sprout} {P k : Id} (h : Holds T cid ys P k) (hsub : ys ⊆ ys') :
    Holds T cid ys' P k :=
  h.imp (fun h => h) fun ⟨p, hp, hpk⟩ => ⟨p, hsub hp, hpk⟩

/-- The table holding an added column is unique, the added columns being distinct. -/
theorem Holds.unique (hn : (cid :: ys.map (·.column.id)).Nodup) {P P' k : Id}
    (h : Holds T cid ys P k) (h' : Holds T cid ys P' k) : P = P' := by
  have hcid : ∀ p ∈ ys, p.column.id ≠ cid := fun p hp hpc =>
    (List.nodup_cons.1 hn).1 (hpc ▸ List.mem_map_of_mem hp)
  rcases h with ⟨rfl, rfl⟩ | ⟨p, hp, rfl, rfl⟩ <;> rcases h' with ⟨hk, rfl⟩ | ⟨q, hq, hqk, rfl⟩
  · rfl
  · exact absurd hqk (hcid q hq)
  · exact absurd hk (hcid p hp)
  · rw [List.inj_on_of_nodup_map (List.nodup_cons.1 hn).2 hq hp hqk]

theorem Rooted.holds (h : Rooted T cid ys) : ∀ y ∈ ys, Holds T cid ys y.provider y.key := by
  induction h with
  | nil => exact fun _ h => absurd h List.not_mem_nil
  | snoc _ hy ih =>
    intro y' hy'
    rcases List.mem_append.1 hy' with hy' | hy'
    · exact (ih y' hy').mono (List.subset_append_left _ _)
    · obtain rfl := List.mem_singleton.1 hy'
      exact hy.mono (List.subset_append_left _ _)

/-- When every holder column left maps a column that is left too, none is left: following the
columns mapped leads back, through columns added earlier, to the new column. -/
theorem Rooted.all_gone (h : Rooted T cid ys) {gone : List Id}
    (hleft : ∀ y ∈ ys, y.column.id ∉ gone → y.key ≠ cid ∧ y.key ∉ gone) :
    ∀ y ∈ ys, y.column.id ∈ gone := by
  induction h with
  | nil => exact fun _ h => absurd h List.not_mem_nil
  | @snoc ys y _ hy ih =>
    have hys := ih fun y' hy' => hleft y' (List.mem_append_left _ hy')
    intro y' hy'
    rcases List.mem_append.1 hy' with hy' | hy'
    · exact hys y' hy'
    · rw [List.mem_singleton.1 hy']
      by_contra hgone
      obtain ⟨hcid, hkey⟩ := hleft y (List.mem_append_right _ (List.mem_singleton_self _)) hgone
      rcases hy with ⟨hk, -⟩ | ⟨p, hp, hpk, -⟩
      · exact hcid hk
      · exact hkey (hpk ▸ hys p hp)

end Sprout

/-! ## Growths of a schema -/

/-- What creating one column added to a schema: the column put in at its place in table `table`,
the holder columns of key propagation in the order they were made, and key entries and
constraints, each with the table it belongs to. -/
structure SchemaGrowth where
  table : Id
  placed : Option (Nat × Column)
  sprouts : List Sprout := []
  keyEntries : List (Id × ConstraintColumn) := []
  constraints : List (Id × Constraint) := []

namespace SchemaGrowth

/-- The part of the growth in table `tid`. -/
def part (G : SchemaGrowth) (tid : Id) : TableGrowth where
  placed := if tid = G.table then G.placed else none
  columns := (G.sprouts.filter (·.table = tid)).map (·.column)
  mappings := (G.sprouts.filter (·.table = tid)).map fun y => (y.relationship, y.mapping)
  keyEntries := (G.keyEntries.filter (·.1 = tid)).map (·.2)
  constraints := (G.constraints.filter (·.1 = tid)).map (·.2)

/-- The added columns, the new one first. -/
def columnIds (G : SchemaGrowth) : List Id :=
  G.placed.toList.map (·.2.id) ++ G.sprouts.map (·.column.id)

/-- The growth without the added columns `xs` and what lies on them. -/
def without (G : SchemaGrowth) (xs : List Id) : SchemaGrowth where
  table := G.table
  placed := G.placed.filter (!xs.contains ·.2.id)
  sprouts := G.sprouts.filter (!xs.contains ·.column.id)
  keyEntries := G.keyEntries.filter (!xs.contains ·.2.columnId)
  constraints := G.constraints.map fun p => (p.1, p.2.withoutColumns xs)

variable {G : SchemaGrowth}

/-- Taking columns away from a growth takes them away from each table's part. -/
theorem part_without (xs : List Id) (tid : Id) : (G.without xs).part tid = (G.part tid).without xs := by
  unfold part without TableGrowth.without
  simp only [TableGrowth.mk.injEq]
  refine ⟨?_, ?_, ?_, ?_, ?_⟩
  · split <;> rfl
  · rw [List.filter_map, List.filter_filter, List.filter_filter]
    congr 1
    exact List.filter_congr fun _ _ => Bool.and_comm _ _
  · rw [List.filter_map, List.filter_filter, List.filter_filter]
    congr 1
    exact List.filter_congr fun _ _ => Bool.and_comm _ _
  · rw [List.filter_map, List.filter_filter, List.filter_filter]
    congr 1
    exact List.filter_congr fun _ _ => Bool.and_comm _ _
  · rw [List.filter_map, List.map_map, List.map_map]
    rfl

theorem part_columnIds_sublist (tid : Id) : (G.part tid).columnIds.Sublist G.columnIds := by
  unfold part TableGrowth.columnIds columnIds
  refine List.Sublist.append ?_ ?_
  · split
    · exact List.Sublist.refl _
    · exact List.nil_sublist _
  · rw [List.map_map]
    exact (List.filter_sublist).map _

theorem without_columnIds (xs : List Id) :
    (G.without xs).columnIds = G.columnIds.filter (!xs.contains ·) := by
  unfold columnIds without
  rw [List.filter_append, List.filter_map, List.filter_map]
  congr 1
  cases G.placed with
  | none => rfl
  | some ic =>
    simp only [Option.filter]
    split <;> simp_all

theorem mem_without_columnIds {xs : List Id} {y : Id} :
    y ∈ (G.without xs).columnIds ↔ y ∈ G.columnIds ∧ y ∉ xs := by
  simp [without_columnIds]

/-! ### Growing a growth -/

/-- The growth with one more holder column. -/
def addSprout (G : SchemaGrowth) (y : Sprout) : SchemaGrowth := { G with sprouts := G.sprouts ++ [y] }

/-- The growth with key entries added in table `tid`. -/
def addKeyEntries (G : SchemaGrowth) (tid : Id) (es : List ConstraintColumn) : SchemaGrowth :=
  { G with keyEntries := G.keyEntries ++ es.map (tid, ·) }

/-- The growth with a constraint added in table `tid`. -/
def addConstraint (G : SchemaGrowth) (tid : Id) (k : Constraint) : SchemaGrowth :=
  { G with constraints := G.constraints ++ [(tid, k)] }

variable {tid : Id}

theorem part_addSprout_self (y : Sprout) :
    (G.addSprout y).part y.table = { G.part y.table with
      columns := (G.part y.table).columns ++ [y.column]
      mappings := (G.part y.table).mappings ++ [(y.relationship, y.mapping)] } := by
  simp [part, addSprout, List.filter_append]
  rfl

theorem part_addSprout_of_ne {y : Sprout} (h : y.table ≠ tid) : (G.addSprout y).part tid = G.part tid := by
  simp [part, addSprout, List.filter_append, h]
  rfl

theorem part_addKeyEntries_self (es : List ConstraintColumn) :
    (G.addKeyEntries tid es).part tid = { G.part tid with keyEntries := (G.part tid).keyEntries ++ es } := by
  simp [part, addKeyEntries, List.filter_append, List.filter_map, Function.comp_def]
  rfl

theorem part_addKeyEntries_of_ne {tid' : Id} (h : tid ≠ tid') (es : List ConstraintColumn) :
    (G.addKeyEntries tid es).part tid' = G.part tid' := by
  simp [part, addKeyEntries, List.filter_append, List.filter_map, Function.comp_def, h]
  rfl

theorem part_addConstraint_self (k : Constraint) :
    (G.addConstraint tid k).part tid = { G.part tid with constraints := (G.part tid).constraints ++ [k] } := by
  simp [part, addConstraint, List.filter_append]
  rfl

theorem part_addConstraint_of_ne {tid' : Id} (h : tid ≠ tid') (k : Constraint) :
    (G.addConstraint tid k).part tid' = G.part tid' := by
  simp [part, addConstraint, List.filter_append, h]
  rfl

@[simp] theorem addSprout_columnIds (y : Sprout) :
    (G.addSprout y).columnIds = G.columnIds ++ [y.column.id] := by
  simp [columnIds, addSprout]

@[simp] theorem addKeyEntries_columnIds (es : List ConstraintColumn) :
    (G.addKeyEntries tid es).columnIds = G.columnIds := rfl

@[simp] theorem addConstraint_columnIds (k : Constraint) :
    (G.addConstraint tid k).columnIds = G.columnIds := rfl

end SchemaGrowth

/-! ## Grown snapshots -/

/-- The schema with every table grown by its part of `G`. -/
def Schema.grow (s : Schema) (G : SchemaGrowth) : Schema :=
  { s with tables := s.tables.map fun t => t.grow (G.part t.id) }

/-- The snapshot with schema `sid` grown by `G`. -/
def Database.grownBy (db : Database) (sid : Id) (G : SchemaGrowth) : Database :=
  { db with schemas := updateFirst (·.id = sid) (·.grow G) db.schemas }

namespace Schema

variable {s : Schema} {G : SchemaGrowth} {tid : Id} {t : Table}

@[simp] theorem grow_id : (s.grow G).id = s.id := rfl

theorem table?_grow (ht : s.table? tid = some t) : (s.grow G).table? tid = some (t.grow (G.part tid)) := by
  unfold grow table?
  rw [List.find?_map]
  have hsame : ((fun t => decide (t.id = tid)) ∘ fun t : Table => t.grow (G.part t.id)) =
      fun t => decide (t.id = tid) := rfl
  rw [hsame]
  unfold table? at ht
  rw [ht]
  have hid : t.id = tid := by simpa using List.find?_some ht
  rw [← hid]
  rfl

theorem grow_tableIds : (s.grow G).tables.map (·.id) = s.tables.map (·.id) := by
  unfold grow
  rw [List.map_map]
  rfl

theorem grow_relationships :
    (s.grow G).relationships =
      s.tables.flatMap fun t => t.relationships.map (·.withMappings (G.part t.id).mappings) := by
  unfold grow relationships
  rw [List.flatMap_map]
  rfl

theorem mem_grow_relationships {r' : Relationship} (h : r' ∈ (s.grow G).relationships) :
    ∃ t ∈ s.tables, ∃ r ∈ t.relationships, r' = r.withMappings (G.part t.id).mappings := by
  rw [grow_relationships] at h
  obtain ⟨t, ht, hr'⟩ := List.mem_flatMap.1 h
  obtain ⟨r, hr, rfl⟩ := List.mem_map.1 hr'
  exact ⟨t, ht, r, hr, rfl⟩

end Schema

namespace Database

variable {db : Database} {sid : Id} {s : Schema} {G : SchemaGrowth}

theorem schema?_grownBy (hs : db.schema? sid = some s) :
    (db.grownBy sid G).schema? sid = some (s.grow G) := by
  unfold grownBy schema?
  dsimp only
  rw [find?_updateFirst (p := fun s : Schema => decide (s.id = sid))
    (f := fun s : Schema => s.grow G) (fun _ h => h)]
  unfold schema? at hs
  rw [hs]
  rfl

theorem findsTable_grownBy {tid : Id} {t : Table} (hs : db.schema? sid = some s)
    (ht : s.table? tid = some t) : (db.grownBy sid G).FindsTable sid tid (t.grow (G.part tid)) :=
  ⟨_, schema?_grownBy hs, Schema.table?_grow ht⟩

/-- Changing one table of a grown snapshot as growing it further, and leaving the parts of the
other tables as they are, grows the snapshot further. -/
theorem updateTable_grownBy (hs : db.schema? sid = some s) (hids : (s.tables.map (·.id)).Nodup)
    {tid : Id} {f : Table → Table} {G' : SchemaGrowth}
    (hf : ∀ t ∈ s.tables, t.id = tid → f (t.grow (G.part tid)) = t.grow (G'.part tid))
    (hother : ∀ t ∈ s.tables, t.id ≠ tid → G'.part t.id = G.part t.id) :
    (db.grownBy sid G).updateTable sid tid f = db.grownBy sid G' := by
  unfold updateTable grownBy
  dsimp only
  congr 1
  rw [updateFirst_updateFirst (f := fun s : Schema => s.grow G) (fun _ => rfl)]
  refine updateFirst_congr_of_find? ?_ hs
  -- within the schema, only the table `tid` changes, and it is the only one with its id
  have hcount : ((s.grow G).tables.countP (·.id = tid)) ≤ 1 := by
    rw [List.countP_eq_length_filter]
    exact length_filter_id_le_one (by rw [Schema.grow_tableIds]; exact hids) tid
  show ({ s.grow G with tables := updateFirst (·.id = tid) f (s.grow G).tables } : Schema) = s.grow G'
  rw [updateFirst_eq_map hcount]
  unfold Schema.grow
  dsimp only
  rw [List.map_map]
  congr 1
  refine List.map_congr_left fun t ht => ?_
  by_cases htid : t.id = tid
  · simp only [Function.comp_apply, Table.grow_id, htid, decide_true, ite_true]
    exact hf t ht htid
  · simp only [Function.comp_apply, Table.grow_id, htid, decide_false, Bool.false_eq_true,
      ite_false]
    rw [hother t ht htid]

/-- A growth that leaves every table of the schema as it is leaves the snapshot as it is. -/
theorem grownBy_eq_self (hs : db.schema? sid = some s) (h : ∀ t ∈ s.tables, t.grow (G.part t.id) = t) :
    db.grownBy sid G = db := by
  have hgrow : s.grow G = s := by
    unfold Schema.grow
    rw [(List.map_congr_left h).trans (List.map_id' _)]
  unfold grownBy
  rw [updateFirst_congr_of_find? (g := fun x => x) hgrow hs, updateFirst_self]

/-- Two changes of one table in a row are one change. -/
theorem updateTable_updateTable {tid : Id} {f g : Table → Table} (hf : ∀ t, (f t).id = t.id) :
    (db.updateTable sid tid f).updateTable sid tid g = db.updateTable sid tid (fun t => g (f t)) := by
  unfold updateTable
  dsimp only
  rw [updateFirst_updateFirst]
  · congr 2
    funext s
    dsimp only
    rw [updateFirst_updateFirst]
    intro t
    rw [hf]
  · intro
    rfl

theorem FindsTable.mentionedIds_subset {tid : Id} {t : Table} (h : db.FindsTable sid tid t) :
    t.mentionedIds ⊆ db.mentionedIds := by
  obtain ⟨s, hs, ht⟩ := h
  intro x hx
  exact List.mem_cons_of_mem _ (List.mem_flatMap.2 ⟨s, List.mem_of_find?_eq_some hs,
    List.mem_cons_of_mem _ (List.mem_cons_of_mem _
      (List.mem_flatMap.2 ⟨t, List.mem_of_find?_eq_some ht, hx⟩))⟩)

end Database

/-! ## Growths that fit a schema -/

/-- A growth that fits schema `s`: each table's part fits the table, the added columns are
distinct and no table of the schema mentions them, and each holder column sits in a table of
the schema, in a relationship that references its provider. -/
structure SchemaGrowth.Fits (G : SchemaGrowth) (s : Schema) : Prop where
  parts : ∀ t ∈ s.tables, (G.part t.id).Fits t
  fresh : ∀ x ∈ G.columnIds, ∀ t ∈ s.tables, x ∉ t.mentionedIds
  nodup : G.columnIds.Nodup
  homes : ∀ y ∈ G.sprouts, ∃ t ∈ s.tables, t.id = y.table ∧
    ∃ r ∈ t.relationships, r.id = y.relationship ∧ r.pkTableId = y.provider

/-- A growth from the new column `c`: it fits the schema, puts `c` in a table of the schema, and
its holder columns are rooted at `c`. -/
structure SchemaGrowth.From (G : SchemaGrowth) (s : Schema) (c : Column) : Prop where
  fits : G.Fits s
  table : ∃ t ∈ s.tables, t.id = G.table
  placed : ∃ i, G.placed = some (i, c)
  rooted : Sprout.Rooted G.table c.id G.sprouts

/-- What growing schema `sid` of `db` builds on: the schema is `s`, its tables have distinct ids
and are settled, and each relationship names the table that holds it. -/
structure Database.Ground (db : Database) (sid : Id) (s : Schema) : Prop where
  schema : db.schema? sid = some s
  tableIds : (s.tables.map (·.id)).Nodup
  settled : ∀ t ∈ s.tables, t.Settled
  holders : ∀ t ∈ s.tables, ∀ r ∈ t.relationships, r.fkTableId = t.id

namespace SchemaGrowth

variable {G : SchemaGrowth} {s : Schema}

theorem Fits.without (hG : G.Fits s) (xs : List Id) : (G.without xs).Fits s where
  parts t ht := part_without xs t.id ▸ (hG.parts t ht).without xs
  fresh x hx := hG.fresh x (mem_without_columnIds.1 hx).1
  nodup := by
    rw [without_columnIds]
    exact hG.nodup.filter _
  homes y hy := hG.homes y (List.mem_filter.1 hy).1

/-- Each added column belongs to the part of a table of the schema, when the new column's table
is one. -/
theorem Fits.exists_part (hG : G.Fits s) (hT : ∃ t ∈ s.tables, t.id = G.table) {x : Id}
    (hx : x ∈ G.columnIds) : ∃ t ∈ s.tables, x ∈ (G.part t.id).columnIds := by
  unfold columnIds at hx
  rcases List.mem_append.1 hx with hx | hx
  · obtain ⟨t, ht, htT⟩ := hT
    refine ⟨t, ht, List.mem_append_left _ ?_⟩
    simpa [part, htT] using hx
  · obtain ⟨y, hy, rfl⟩ := List.mem_map.1 hx
    obtain ⟨t, ht, hty, -⟩ := hG.homes y hy
    refine ⟨t, ht, List.mem_append_right _ ?_⟩
    simp only [part, List.map_map]
    exact List.mem_map_of_mem (List.mem_filter.2 ⟨hy, by simp [hty]⟩)

end SchemaGrowth

namespace Database

variable {db : Database} {sid : Id} {s : Schema} {G : SchemaGrowth}

/-- An id the grown snapshot does not mention is mentioned by no table of the schema and is none
of the added columns. -/
theorem fresh_of_not_mem_grownBy (hs : db.schema? sid = some s) (hids : (s.tables.map (·.id)).Nodup)
    (hset : ∀ t ∈ s.tables, t.Settled) (hG : G.Fits s) (hT : ∃ t ∈ s.tables, t.id = G.table)
    {x : Id} (hx : x ∉ (db.grownBy sid G).mentionedIds) :
    (∀ t ∈ s.tables, x ∉ t.mentionedIds) ∧ x ∉ G.columnIds := by
  -- each table of the schema is found grown, and mentions no more than the grown snapshot
  have hgrown : ∀ t ∈ s.tables, x ∉ (t.grow (G.part t.id)).mentionedIds := fun t ht hxt =>
    hx ((findsTable_grownBy hs (Schema.table?_of_mem hids ht)).mentionedIds_subset hxt)
  refine ⟨fun t ht hxt => hgrown t ht (Table.mentionedIds_subset_grow (hset t ht) hxt), ?_⟩
  intro hxG
  obtain ⟨t, ht, hxt⟩ := hG.exists_part hT hxG
  exact hgrown t ht (Table.columnIds_subset_grow_mentionedIds hxt)

end Database

end SchemaDesign
