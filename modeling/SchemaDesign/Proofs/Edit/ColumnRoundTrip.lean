import SchemaDesign.Proofs.Edit.ColumnCreation

/-!
# Deleting a created column undoes its creation

On an accepted, tidy snapshot, deleting a column that `createColumn` has just created gives back
the snapshot as it was (`Editor.apply_createColumn_deleteColumn`).

Creation left the snapshot grown by a growth from the new column (`EditM.createColumn_grows`).
Deletion runs forward on it:

- no relationship maps the new column as a holder column, so the key guard lets it go;
- the cascade from the new column visits, holder after holder, exactly the holder columns key
  propagation added below it (`Schema.keyDependents_grow`), and drops each with its mapping
  (`EditM.run_dropMapping_grown`), breadth first until none is left (`EditM.run_removalLoop_clears`);
- detaching the new column then takes away the last added column, and a growth with no added
  column is no growth at all.
-/

namespace SchemaDesign

section Renumber

variable {α β : Type} {set : α → Nat → α}

/-- Renumbering changes neither which items a filter keeps nor what is read off them. -/
theorem filter_map_renumber {q : α → Bool} {g : α → β} (hq : ∀ x n, q (set x n) = q x)
    (hg : ∀ x n, g (set x n) = g x) (xs : List α) :
    ((renumber set xs).filter q).map g = (xs.filter q).map g := by
  induction xs using List.reverseRecOn with
  | nil => rfl
  | append_singleton xs x ih =>
    rw [renumber_append_singleton, List.filter_append, List.filter_append, List.map_append,
      List.map_append, ih, List.filter_singleton, List.filter_singleton, hq]
    cases q x <;> simp [hg]

end Renumber

/-! ## Taking columns away twice -/

theorem Constraint.withoutColumns_withoutColumns (k : Constraint) (xs ys : List Id) :
    (k.withoutColumns xs).withoutColumns ys = k.withoutColumns (xs ++ ys) := by
  unfold Constraint.withoutColumns
  dsimp only
  rw [renumber_filter_renumber, List.filter_filter]
  · congr 3
    funext e
    simp [Bool.and_comm]
  · exact fun _ _ _ => rfl
  · exact fun _ _ => rfl

namespace SchemaGrowth

variable {G : SchemaGrowth}

theorem without_without (xs ys : List Id) : (G.without xs).without ys = G.without (xs ++ ys) := by
  unfold without
  simp only [SchemaGrowth.mk.injEq, List.filter_filter, List.map_map]
  refine ⟨trivial, ?_, ?_, ?_, ?_⟩
  · cases G.placed with
    | none => rfl
    | some p => by_cases hx : p.2.id ∈ xs <;> by_cases hy : p.2.id ∈ ys <;> simp [Option.filter, hx, hy]
  · exact List.filter_congr fun y _ => by simp [Bool.and_comm]
  · exact List.filter_congr fun e _ => by simp [Bool.and_comm]
  · exact List.map_congr_left fun p _ => by simp [Constraint.withoutColumns_withoutColumns]

/-- A holder column is an added column of its own table's part only. -/
theorem not_mem_part_columnIds_of_ne (hn : G.columnIds.Nodup) {y : Sprout} (hy : y ∈ G.sprouts)
    {tid : Id} (hne : y.table ≠ tid) : y.column.id ∉ (G.part tid).columnIds := by
  unfold columnIds at hn
  have hsprouts := List.Nodup.of_append_right hn
  unfold part TableGrowth.columnIds
  rw [List.map_map]
  intro hmem
  rcases List.mem_append.1 hmem with hplaced | hheld
  · -- the new column is none of the holder columns
    split at hplaced
    · exact List.disjoint_of_nodup_append hn hplaced (List.mem_map_of_mem hy)
    · exact absurd hplaced List.not_mem_nil
  · obtain ⟨z, hz, hzy⟩ := List.mem_map.1 hheld
    obtain ⟨hz, hzt⟩ := List.mem_filter.1 hz
    obtain rfl := List.inj_on_of_nodup_map hsprouts hz hy hzy
    exact hne (by simpa using hzt)

theorem not_mem_part_columnIds_of_ne_table {x : Id} (hx : x ∉ G.sprouts.map (·.column.id))
    {tid : Id} (hne : tid ≠ G.table) : x ∉ (G.part tid).columnIds := by
  unfold part TableGrowth.columnIds
  rw [if_neg hne, List.map_map]
  intro hmem
  obtain ⟨z, hz, rfl⟩ := List.mem_map.1 (List.mem_append.1 hmem |>.resolve_left List.not_mem_nil)
  exact hx (List.mem_map_of_mem (List.mem_filter.1 hz).1)

end SchemaGrowth

/-! ## The dependents a removal visits -/

/-- The mappings onto column `k` of table `P`, read as (holder, relationship, holder column): the
dependents that removing `k` from `P` visits. -/
def Schema.keyDependents (s : Schema) (P k : Id) : List (Id × Id × Id) :=
  (s.referencing P).flatMap fun r =>
    (r.columns.filter (·.pkColumnId = k)).map fun m => (r.fkTableId, r.id, m.fkColumnId)

/-- A holder column read as a dependent: its table, its relationship and itself. -/
def Sprout.dependent (y : Sprout) : Id × Id × Id := (y.table, y.relationship, y.column.id)

namespace Database.Ground

variable {db : Database} {sid : Id} {s : Schema} {G : SchemaGrowth} {P k : Id}

/-- In a grown relationship, the mappings onto an added column are the added ones. -/
theorem grow_mappingsOnto (hg : db.Ground sid s) {t : Table} (ht : t ∈ s.tables)
    {r : Relationship} (hr : r ∈ t.relationships) (hk : k ∉ t.mentionedIds) :
    (((r.withMappings (G.part t.id).mappings).columns.filter (·.pkColumnId = k)).map fun m =>
        ((r.withMappings (G.part t.id).mappings).fkTableId, r.id, m.fkColumnId)) =
      (G.sprouts.filter fun y => y.table = t.id && y.relationship = r.id && y.key = k).map
        Sprout.dependent := by
  unfold Relationship.withMappings
  dsimp only
  rw [filter_map_renumber, List.filter_append, List.filter_eq_nil_iff.2 fun m hm => ?_, List.nil_append]
  · simp only [SchemaGrowth.part, List.filter_map, List.map_map, List.filter_filter, Function.comp_def]
    have hpred : ∀ y : Sprout, (decide (y.mapping.pkColumnId = k) &&
        (decide (y.relationship = r.id) && decide (y.table = t.id))) =
        (decide (y.table = t.id) && decide (y.relationship = r.id) && decide (y.key = k)) := fun y => by
      rw [Bool.and_comm, Bool.and_comm (decide (y.relationship = r.id))]
      rfl
    rw [List.filter_congr fun y _ => hpred y]
    refine List.map_congr_left fun y hy => ?_
    have hy : (y.table = t.id ∧ y.relationship = r.id) ∧ y.key = k := by
      simpa using (List.mem_filter.1 hy).2
    simp [Sprout.dependent, Sprout.mapping, hg.holders t ht r hr, hy.1.1, hy.1.2]
  · -- the table's own mappings reference its own columns, none of them `k`
    rw [decide_eq_true_iff]
    rintro rfl
    exact hk (Table.mentions_pkColumn hr hm)
  · exact fun _ _ => rfl
  · exact fun _ _ => rfl

/-- The dependents of an added column of a grown schema are the holder columns mapping it, table by
table and relationship by relationship. -/
theorem keyDependents_grow (hg : db.Ground sid s) (hk : ∀ t ∈ s.tables, k ∉ t.mentionedIds)
    (G : SchemaGrowth) :
    (s.grow G).keyDependents P k = s.tables.flatMap fun t =>
      (t.relationships.filter (·.pkTableId = P)).flatMap fun r =>
        (G.sprouts.filter fun y => y.table = t.id && y.relationship = r.id && y.key = k).map
          Sprout.dependent := by
  unfold Schema.keyDependents Schema.referencing
  rw [Schema.grow_relationships, List.filter_flatMap, List.flatMap_assoc]
  refine List.flatMap_congr fun t ht => ?_
  rw [List.filter_map, List.flatMap_map]
  refine List.flatMap_congr fun r hr => ?_
  exact hg.grow_mappingsOnto ht (List.mem_filter.1 hr).1 (hk t ht)

/-- Each dependent of an added column is a holder column mapping it. -/
theorem exists_of_mem_keyDependents (hg : db.Ground sid s) (hk : ∀ t ∈ s.tables, k ∉ t.mentionedIds)
    {e : Id × Id × Id} (he : e ∈ (s.grow G).keyDependents P k) :
    ∃ y ∈ G.sprouts, y.key = k ∧ e = y.dependent := by
  rw [hg.keyDependents_grow hk] at he
  obtain ⟨t, -, he⟩ := List.mem_flatMap.1 he
  obtain ⟨r, -, he⟩ := List.mem_flatMap.1 he
  obtain ⟨y, hy, rfl⟩ := List.mem_map.1 he
  obtain ⟨hy, hyk⟩ := List.mem_filter.1 hy
  simp only [Bool.and_eq_true, decide_eq_true_eq] at hyk
  exact ⟨y, hy, hyk.2, rfl⟩

/-- Each holder column mapping an added column of its provider is a dependent of it. -/
theorem dependent_mem_keyDependents (hg : db.Ground sid s) (hk : ∀ t ∈ s.tables, k ∉ t.mentionedIds)
    (hG : G.Fits s) {y : Sprout} (hy : y ∈ G.sprouts) (hkey : y.key = k) (hP : y.provider = P) :
    y.dependent ∈ (s.grow G).keyDependents P k := by
  rw [hg.keyDependents_grow hk]
  obtain ⟨t, ht, hty, r, hr, hry, hrP⟩ := hG.homes y hy
  refine List.mem_flatMap.2 ⟨t, ht, List.mem_flatMap.2 ⟨r, List.mem_filter.2 ⟨hr, ?_⟩,
    List.mem_map_of_mem (List.mem_filter.2 ⟨hy, ?_⟩)⟩⟩
  · simp [hrP, hP]
  · simp [hty, hry, hkey]

/-- The dependents of an added column are distinct holder columns. -/
theorem keyDependents_nodup (hg : db.Ground sid s) (hk : ∀ t ∈ s.tables, k ∉ t.mentionedIds)
    (hG : G.Fits s) : (((s.grow G).keyDependents P k).map (·.2.2)).Nodup := by
  have hsprouts : (G.sprouts.map (·.column.id)).Nodup := List.Nodup.of_append_right hG.nodup
  -- the dependents themselves are distinct: by table, then by relationship, then by column
  have htriples : ((s.grow G).keyDependents P k).Nodup := by
    rw [hg.keyDependents_grow hk]
    refine List.nodup_flatMap.2 ⟨fun t ht => List.nodup_flatMap.2 ⟨fun r _ => ?_, ?_⟩, ?_⟩
    · refine List.Nodup.of_map (·.2.2) ?_
      rw [List.map_map]
      exact hsprouts.sublist (List.filter_sublist.map _)
    · refine (List.pairwise_map.1 ((hg.settled t ht).relationshipIds.sublist
        (List.filter_sublist.map _))).imp fun hne x hx hx' => hne ?_
      obtain ⟨y, hy, rfl⟩ := List.mem_map.1 hx
      obtain ⟨y', hy', hyy'⟩ := List.mem_map.1 hx'
      have h₁ := (List.mem_filter.1 hy).2
      have h₂ := (List.mem_filter.1 hy').2
      simp only [Bool.and_eq_true, decide_eq_true_eq] at h₁ h₂
      rw [← h₁.1.2, ← h₂.1.2]
      exact (congrArg (·.2.1) hyy').symm
    · refine (List.pairwise_map.1 hg.tableIds).imp fun hne x hx hx' => hne ?_
      obtain ⟨r, -, hx⟩ := List.mem_flatMap.1 hx
      obtain ⟨r', -, hx'⟩ := List.mem_flatMap.1 hx'
      obtain ⟨y, hy, rfl⟩ := List.mem_map.1 hx
      obtain ⟨y', hy', hyy'⟩ := List.mem_map.1 hx'
      have h₁ := (List.mem_filter.1 hy).2
      have h₂ := (List.mem_filter.1 hy').2
      simp only [Bool.and_eq_true, decide_eq_true_eq] at h₁ h₂
      rw [← h₁.1.1, ← h₂.1.1]
      exact (congrArg (·.1) hyy').symm
  refine htriples.map_on fun x hx x' hx' hxx' => ?_
  obtain ⟨y, hy, -, rfl⟩ := hg.exists_of_mem_keyDependents hk hx
  obtain ⟨y', hy', -, rfl⟩ := hg.exists_of_mem_keyDependents hk hx'
  rw [List.inj_on_of_nodup_map hsprouts hy hy' hxx']

theorem grownBy_congr (hg : db.Ground sid s) {G' : SchemaGrowth}
    (h : ∀ t ∈ s.tables, G'.part t.id = G.part t.id) : db.grownBy sid G' = db.grownBy sid G := by
  have hgrow : s.grow G' = s.grow G := by
    unfold Schema.grow
    congr 1
    exact List.map_congr_left fun t ht => by rw [h t ht]
  unfold Database.grownBy
  rw [updateFirst_congr_of_find? (g := (·.grow G)) hgrow hg.schema]

end Database.Ground

/-- Every holder column comes with a mapping of its own, so there are no more of them than
mappings in the grown schema. -/
theorem SchemaGrowth.Fits.length_sprouts_le_mappingCount {s : Schema} {G : SchemaGrowth} (hG : G.Fits s) :
    G.sprouts.length ≤ (s.grow G).mappingCount := by
  have hcount : (s.grow G).mappingCount = ((s.grow G).relationships.flatMap (·.columns)).length := by
    rw [List.length_flatMap, List.sum_eq_foldr]
    rfl
  have hsub : G.sprouts.map (·.column.id) ⊆
      ((s.grow G).relationships.flatMap (·.columns)).map (·.fkColumnId) := by
    intro x hx
    obtain ⟨y, hy, rfl⟩ := List.mem_map.1 hx
    obtain ⟨t, ht, hty, r, hr, hry, -⟩ := hG.homes y hy
    have hr' : r.withMappings (G.part t.id).mappings ∈ (s.grow G).relationships := by
      rw [Schema.grow_relationships]
      exact List.mem_flatMap.2 ⟨t, ht, List.mem_map_of_mem hr⟩
    have hm : y.mapping ∈ r.columns ++ ((G.part t.id).mappings.filter (·.1 = r.id)).map (·.2) := by
      refine List.mem_append_right _ (List.mem_map.2 ⟨(y.relationship, y.mapping), ?_, rfl⟩)
      refine List.mem_filter.2 ⟨?_, by simp [hry]⟩
      exact List.mem_map_of_mem (List.mem_filter.2 ⟨hy, by simp [hty]⟩)
    rw [List.map_flatMap]
    refine List.mem_flatMap.2 ⟨_, hr', ?_⟩
    dsimp only [Relationship.withMappings]
    rw [map_renumber]
    · exact List.mem_map_of_mem hm
    · exact fun _ _ => rfl
  have hnd : (G.sprouts.map (·.column.id)).Nodup := List.Nodup.of_append_right hG.nodup
  calc G.sprouts.length = (G.sprouts.map (·.column.id)).length := (List.length_map _).symm
    _ ≤ (((s.grow G).relationships.flatMap (·.columns)).map (·.fkColumnId)).length :=
      (hnd.subperm hsub).length_le
    _ = (s.grow G).mappingCount := by rw [List.length_map, hcount]

/-! ## The state of a removal -/

/-- A removal from the new column `cid` part way: the holder columns `gone` are dropped, the
queue holds the new column or gone ones, every holder column left that maps one of them has its
key queued, and none left has been visited. -/
structure SchemaGrowth.Clearing (G : SchemaGrowth) (cid : Id) (work : List (Id × Id × Bool))
    (visited : List (Id × Id)) (gone : List Id) : Prop where
  nodup : gone.Nodup
  sprouts : ∀ x ∈ gone, x ∈ G.sprouts.map (·.column.id)
  queued : ∀ e ∈ work, e.2.2 = false ∧ Sprout.Holds G.table cid G.sprouts e.1 e.2.1 ∧
    (e.2.1 = cid ∨ e.2.1 ∈ gone)
  pending : ∀ y ∈ G.sprouts, y.column.id ∉ gone → (y.key = cid ∨ y.key ∈ gone) →
    ∃ e ∈ work, e.2.1 = y.key
  unvisited : ∀ y ∈ G.sprouts, y.column.id ∉ gone → (y.table, y.column.id) ∉ visited

namespace SchemaGrowth.Clearing

variable {G : SchemaGrowth} {cid : Id} {work : List (Id × Id × Bool)} {visited : List (Id × Id)}
  {gone : List Id}

/-- The removal starts from the new column of table `G.table`, visited, and nothing is gone. -/
theorem start (hn : (cid :: G.sprouts.map (·.column.id)).Nodup) :
    G.Clearing cid [(G.table, cid, false)] [(G.table, cid)] [] where
  nodup := List.nodup_nil
  sprouts _ h := absurd h List.not_mem_nil
  queued e he := by
    rw [List.mem_singleton.1 he]
    exact ⟨rfl, .inl ⟨rfl, rfl⟩, .inl rfl⟩
  pending y _ _ hkey := by
    have hkey : y.key = cid := hkey.resolve_right List.not_mem_nil
    exact ⟨(G.table, cid, false), List.mem_singleton_self _, hkey.symm⟩
  unvisited y hy _ hvis := by
    have hne : y.column.id ≠ cid := fun h => (List.nodup_cons.1 hn).1 (h ▸ List.mem_map_of_mem hy)
    exact hne (congrArg (·.2) (List.mem_singleton.1 hvis))

theorem length_le (hC : G.Clearing cid work visited gone) : gone.length ≤ G.sprouts.length := by
  have h := (hC.nodup.subperm hC.sprouts).length_le
  rwa [List.length_map] at h

/-- With nothing queued, every holder column is gone: following the columns they map leads back
to the new column. -/
theorem all_gone (hC : G.Clearing cid [] visited gone) (hroot : Sprout.Rooted G.table cid G.sprouts) :
    ∀ y ∈ G.sprouts, y.column.id ∈ gone :=
  hroot.all_gone fun y hy hleft => by
    by_contra hkey
    rw [← not_or] at hkey
    obtain ⟨e, he, -⟩ := hC.pending y hy hleft (not_not.1 hkey)
    exact absurd he List.not_mem_nil

/-- One round, on the first queued item `(P, k)`: its dependents are holder columns left that map
`k`, distinct, and every holder column left mapping `k` from `P` is among them. Dropping them all
and queuing each keeps the state. -/
theorem round {P k : Id} {rest : List (Id × Id × Bool)}
    (hC : G.Clearing cid ((P, k, false) :: rest) visited gone)
    (hn : (cid :: G.sprouts.map (·.column.id)).Nodup) (hroot : Sprout.Rooted G.table cid G.sprouts)
    {deps : List (Id × Id × Id)}
    (hdeps : ∀ e ∈ deps, ∃ y ∈ G.sprouts, y.column.id ∉ gone ∧ e = y.dependent)
    (hall : ∀ y ∈ G.sprouts, y.column.id ∉ gone → y.key = k → y.provider = P → y.dependent ∈ deps)
    (hnd : (deps.map (·.2.2)).Nodup) :
    G.Clearing cid (rest ++ deps.map fun e => (e.1, e.2.2, false))
      (visited ++ deps.map fun e => (e.1, e.2.2)) (gone ++ deps.map (·.2.2)) where
  nodup := by
    refine List.nodup_append.2 ⟨hC.nodup, hnd, fun x hx x' hx' hxx' => ?_⟩
    obtain ⟨e, he, rfl⟩ := List.mem_map.1 hx'
    obtain ⟨y, -, hgone, rfl⟩ := hdeps e he
    rw [hxx'] at hx
    exact hgone hx
  sprouts x hx := by
    rcases List.mem_append.1 hx with hx | hx
    · exact hC.sprouts x hx
    · obtain ⟨e, he, rfl⟩ := List.mem_map.1 hx
      obtain ⟨y, hy, -, rfl⟩ := hdeps e he
      exact List.mem_map_of_mem hy
  queued e he := by
    rcases List.mem_append.1 he with he | he
    · obtain ⟨hsv, hholds, hk⟩ := hC.queued e (List.mem_cons_of_mem _ he)
      exact ⟨hsv, hholds, hk.imp_right fun h => List.mem_append_left _ h⟩
    · obtain ⟨e, he', rfl⟩ := List.mem_map.1 he
      obtain ⟨y, hy, -, rfl⟩ := hdeps e he'
      exact ⟨rfl, .inr ⟨y, hy, rfl, rfl⟩, .inr (List.mem_append_right _ (List.mem_map_of_mem he'))⟩
  pending y hy hleft hkey := by
    have hgone : y.column.id ∉ gone := fun h => hleft (List.mem_append_left _ h)
    by_cases hnew : y.key ∈ deps.map (·.2.2)
    · obtain ⟨e, he, hek⟩ := List.mem_map.1 hnew
      exact ⟨(e.1, e.2.2, false), List.mem_append_right _ (List.mem_map_of_mem he), hek⟩
    · have hold : y.key = cid ∨ y.key ∈ gone :=
        hkey.imp_right fun h => (List.mem_append.1 h).resolve_right hnew
      obtain ⟨e, he, hek⟩ := hC.pending y hy hgone hold
      rcases List.mem_cons.1 he with rfl | he
      · -- keyed by this round's column, held by this round's table: one of its dependents
        have hP : y.provider = P :=
          Sprout.Holds.unique hn (hroot.holds y hy) (hek ▸ (hC.queued _ List.mem_cons_self).2.1)
        exact absurd (List.mem_append_right _
          (List.mem_map_of_mem (f := (·.2.2)) (hall y hy hgone hek.symm hP))) hleft
      · exact ⟨e, List.mem_append_left _ he, hek⟩
  unvisited y hy hleft hvis := by
    have hgone : y.column.id ∉ gone := fun h => hleft (List.mem_append_left _ h)
    rcases List.mem_append.1 hvis with hvis | hvis
    · exact hC.unvisited y hy hgone hvis
    · obtain ⟨e, he, hey⟩ := List.mem_map.1 hvis
      exact hleft (List.mem_append_right _ (List.mem_map.2 ⟨e, he, congrArg (·.2) hey⟩))

end SchemaGrowth.Clearing

/-! ## Dropping a holder column of a growth -/

theorem Table.grow_withRelationships (t : Table) (g : TableGrowth) (ms : List (Id × KeyMapping)) :
    { t.grow g with relationships := (t.grow { g with mappings := ms }).relationships } =
      t.grow { g with mappings := ms } :=
  rfl

namespace EditM

/-- A fold whose every step succeeds and carries an invariant of the items folded so far
succeeds, and what follows it runs from the invariant of the whole list. -/
theorem run_foldlM_bind {α β γ : Type} {f : β → α → EditM β} {k : β → EditM γ} (xs : List α)
    (I : List α → β → Session → Prop) (Q : γ → Session → Prop)
    (hf : ∀ done a rest b st, done ++ a :: rest = xs → I done b st →
      ∃ b' st', (f b a).run st = .ok b' st' ∧ I (done ++ [a]) b' st')
    (hk : ∀ b st, I xs b st → ∃ c st', (k b).run st = .ok c st' ∧ Q c st')
    {b : β} {st : Session} (h₀ : I [] b st) :
    ∃ c st', (xs.foldlM f b >>= k).run st = .ok c st' ∧ Q c st' := by
  have hfold : ∀ rest done b st, done ++ rest = xs → I done b st →
      ∃ b' st', (rest.foldlM f b).run st = .ok b' st' ∧ I xs b' st' := by
    intro rest
    induction rest with
    | nil =>
      intro done b st hxs h
      exact ⟨b, st, rfl, by rwa [← hxs, List.append_nil]⟩
    | cons a rest ih =>
      intro done b st hxs h
      obtain ⟨b', st', h₁, h₂⟩ := hf done a rest b st hxs h
      obtain ⟨b'', st'', h₃, h₄⟩ := ih (done ++ [a]) b' st' (by rw [← hxs, List.append_assoc]; rfl) h₂
      exact ⟨b'', st'', by rw [List.foldlM_cons, run_bind_of_ok h₁, h₃], h₄⟩
  obtain ⟨b', st', h₁, h₂⟩ := hfold xs [] b st rfl h₀
  obtain ⟨c, st'', h₃, h₄⟩ := hk b' st' h₂
  exact ⟨c, st'', by rw [run_bind_of_ok h₁, h₃], h₄⟩

section Removal

variable {db : Database} {sid : Id} {s : Schema} {G : SchemaGrowth} {st : Session}

/-- Dropping the mapping of a holder column of a growth drops the column with it: no other
mapping holds it. -/
theorem run_dropMapping_grown (hg : db.Ground sid s) (hG : G.Fits s) {y : Sprout} (hy : y ∈ G.sprouts)
    (hst : st.db = db.grownBy sid G) :
    ∃ st', (dropMapping sid y.table y.relationship y.column.id y.key).run st = .ok (true, true) st' ∧
      st'.db = db.grownBy sid (G.without [y.column.id]) := by
  obtain ⟨t, ht, hty, -⟩ := hG.homes y hy
  have hs' : st.db.schema? sid = some (s.grow G) := by
    rw [hst]
    exact Database.schema?_grownBy hg.schema
  have hfind : (s.grow G).table? y.table = some (t.grow (G.part t.id)) := by
    rw [← hty]
    exact Schema.table?_grow (Schema.table?_of_mem hg.tableIds ht)
  have hn : (G.sprouts.map (·.column.id)).Nodup := List.Nodup.of_append_right hG.nodup
  have hfresh : y.column.id ∉ t.mentionedIds :=
    hG.fresh _ (List.mem_append_right _ (List.mem_map_of_mem hy)) t ht
  have hin : y.column.id ∈ (G.part t.id).columnIds := hty ▸ SchemaGrowth.mem_part_columnIds hy
  have hfk : ∀ m ∈ (G.part t.id).mappings, m.2.fkColumnId = y.column.id →
      m.1 = y.relationship ∧ m.2.pkColumnId = y.key := by
    intro m hm hmfk
    obtain ⟨z, hz, rfl⟩ := List.mem_map.1 hm
    obtain rfl := List.inj_on_of_nodup_map hn (List.mem_filter.1 hz).1 hy hmfk
    exact ⟨rfl, rfl⟩
  have hfits : ({ G.part t.id with
      mappings := (G.part t.id).mappings.filter (!([y.column.id] : List Id).contains ·.2.fkColumnId) } :
        TableGrowth).Fits t :=
    { hG.parts t ht with mappings := fun m hm => (hG.parts t ht).mappings m (List.mem_filter.1 hm).1 }
  unfold dropMapping
  rw [run_bind_of_ok (run_table hs' hfind)]
  dsimp only
  rw [Table.grow_stripMapping (hg.settled t ht) hfresh hfk, Table.grow_stripped_mapsFk hfresh,
    if_neg Bool.false_ne_true, Table.grow_withRelationships, Table.detachColumn_grow (hg.settled t ht) hfits hin]
  dsimp only
  unfold putTable
  rw [run_bind_of_ok (run_modifyTable hs' hfind _)]
  refine ⟨_, rfl, ?_⟩
  show st.db.updateTable sid y.table _ = _
  rw [hst, ← hty]
  refine hg.updateTable_grownBy ht (fun t' ht' hne => ?_) ?_
  · -- the other tables hold no part of the holder column
    rw [SchemaGrowth.part_without]
    refine (hG.parts t' ht').without_eq fun x hx hxy => ?_
    rw [List.mem_singleton.1 hxy] at hx
    exact SchemaGrowth.not_mem_part_columnIds_of_ne hG.nodup hy (hty ▸ Ne.symm hne) hx
  · rw [SchemaGrowth.part_without]
    simp only [TableGrowth.without, List.filter_filter, Bool.and_self]

theorem columnIds_of_from {c : Column} (hF : G.From s c) :
    G.columnIds = c.id :: G.sprouts.map (·.column.id) := by
  obtain ⟨i, hi⟩ := hF.placed
  simp [SchemaGrowth.columnIds, hi]

/-- The removal worklist drops every holder column of the growth, round after round, while its
fuel covers what is queued and what is left. -/
theorem run_removalLoop_clears (hg : db.Ground sid s) {c : Column} (hF : G.From s c) (fuel : Nat) :
    ∀ (work : List (Id × Id × Bool)) (visited : List (Id × Id)) (count : Nat) (gone : List Id)
      (st : Session), G.Clearing c.id work visited gone →
      work.length + G.sprouts.length < fuel + gone.length →
      st.db = db.grownBy sid (G.without gone) →
      ∃ n st', (removalLoop sid fuel work visited count).run st = .ok n st' ∧
        ∃ gone', (∀ x, x ∈ gone' ↔ x ∈ G.sprouts.map (·.column.id)) ∧
          st'.db = db.grownBy sid (G.without gone') := by
  induction fuel with
  | zero =>
    intro work visited count gone st hC hlen _
    have := hC.length_le
    omega
  | succ fuel ih =>
    intro work visited count gone st hC hlen hst
    rcases work with _ | ⟨⟨P, k, sv⟩, rest⟩
    · rw [removalLoop]
      refine ⟨count, st, rfl, gone, fun x => ⟨hC.sprouts x, fun hx => ?_⟩, hst⟩
      obtain ⟨y, hy, rfl⟩ := List.mem_map.1 hx
      exact hC.all_gone hF.rooted y hy
    · obtain ⟨hsv, hholds, hk⟩ := hC.queued _ List.mem_cons_self
      dsimp only at hsv
      subst hsv
      have hs' : st.db.schema? sid = some (s.grow (G.without gone)) := by
        rw [hst]
        exact Database.schema?_grownBy hg.schema
      have hn : (c.id :: G.sprouts.map (·.column.id)).Nodup := columnIds_of_from hF ▸ hF.fits.nodup
      have hkfresh : ∀ t ∈ s.tables, k ∉ t.mentionedIds := by
        refine hF.fits.fresh k ?_
        rw [columnIds_of_from hF]
        rcases hk with hk | hk
        · exact hk ▸ List.mem_cons_self
        · exact List.mem_cons_of_mem _ (hC.sprouts k hk)
      have hGw := hF.fits.without gone
      have hdeps : ∀ e ∈ (s.grow (G.without gone)).keyDependents P k,
          ∃ y ∈ G.sprouts, y.column.id ∉ gone ∧ y.key = k ∧ e = y.dependent := fun e he => by
        obtain ⟨y, hy, hkey, rfl⟩ := hg.exists_of_mem_keyDependents hkfresh he
        obtain ⟨hy, hleft⟩ := List.mem_filter.1 hy
        exact ⟨y, hy, by simpa using hleft, hkey, rfl⟩
      have hnd := hg.keyDependents_nodup (P := P) hkfresh hGw
      have hC' := hC.round hn hF.rooted (fun e he => (hdeps e he).imp fun _ hy => ⟨hy.1, hy.2.1, hy.2.2.2⟩)
        (fun y hy hleft hkey hP => hg.dependent_mem_keyDependents hkfresh hGw
          (List.mem_filter.2 ⟨hy, by simpa using hleft⟩) hkey hP) hnd
      rw [removalLoop, run_bind_of_ok (run_schema hs')]
      simp only [Bool.not_false, Bool.true_or, List.filter_true]
      refine run_foldlM_bind ((s.grow (G.without gone)).keyDependents P k)
        (fun done b st => b = (rest ++ done.map (fun e => (e.1, e.2.2, false)),
          visited ++ done.map (fun e => (e.1, e.2.2)), count + done.length) ∧
          st.db = db.grownBy sid (G.without (gone ++ done.map (·.2.2))))
        (fun _ st' => ∃ gone', (∀ x, x ∈ gone' ↔ x ∈ G.sprouts.map (·.column.id)) ∧
          st'.db = db.grownBy sid (G.without gone'))
        ?_ ?_ ?_
      · -- one dependent: its holder column is dropped, and queued as not visited yet
        rintro done e more b st₁ hsplit ⟨rfl, hst₁⟩
        have he : e ∈ (s.grow (G.without gone)).keyDependents P k :=
          hsplit ▸ List.mem_append_right _ List.mem_cons_self
        obtain ⟨y, hy, hleft, hkey, rfl⟩ := hdeps e he
        have hnew : y.column.id ∉ done.map (·.2.2) := by
          have hnodup := hsplit ▸ hnd
          rw [List.map_append, List.map_cons] at hnodup
          exact fun h => (List.nodup_append.1 hnodup).2.2 _ h _ List.mem_cons_self rfl
        have hyG : y ∈ (G.without (gone ++ done.map (·.2.2))).sprouts :=
          List.mem_filter.2 ⟨hy, by simp [hleft, hnew]⟩
        obtain ⟨st₂, hdrop, hdb₂⟩ := run_dropMapping_grown hg (hF.fits.without _) hyG hst₁
        rw [hkey] at hdrop
        have hvis : (y.table, y.column.id) ∉ visited ++ done.map fun e => (e.1, e.2.2) := by
          intro hmem
          rcases List.mem_append.1 hmem with hmem | hmem
          · exact hC.unvisited y hy hleft hmem
          · obtain ⟨e, he, hey⟩ := List.mem_map.1 hmem
            exact hnew (List.mem_map.2 ⟨e, he, congrArg (·.2) hey⟩)
        refine ⟨(rest ++ (done ++ [y.dependent]).map (fun e => (e.1, e.2.2, false)),
          visited ++ (done ++ [y.dependent]).map (fun e => (e.1, e.2.2)),
          count + (done ++ [y.dependent]).length), st₂, ?_, rfl, ?_⟩
        · dsimp only [Sprout.dependent]
          rw [run_bind_of_ok hdrop]
          simp [hvis, Nat.add_assoc]
        · rw [hdb₂, SchemaGrowth.without_without, List.map_append, List.append_assoc]
          rfl
      · -- the round done, the worklist goes on from the state it leaves
        rintro b st₂ ⟨rfl, hst₂⟩
        refine ih _ _ _ _ st₂ hC' ?_ hst₂
        simp only [List.length_append, List.length_map, List.length_cons] at hlen ⊢
        omega
      · exact ⟨by simp, by simpa using hst⟩

/-- The cascade from the new column drops every holder column of the growth. -/
theorem run_cascadeKeyRemoval_clears (hg : db.Ground sid s) {c : Column} (hF : G.From s c)
    (hst : st.db = db.grownBy sid G) :
    ∃ n st', (cascadeKeyRemoval sid [(G.table, c.id)] false).run st = .ok n st' ∧
      ∃ gone, (∀ x, x ∈ gone ↔ x ∈ G.sprouts.map (·.column.id)) ∧
        st'.db = db.grownBy sid (G.without gone) := by
  have hs' : st.db.schema? sid = some (s.grow G) := by
    rw [hst]
    exact Database.schema?_grownBy hg.schema
  have hn : (c.id :: G.sprouts.map (·.column.id)).Nodup := columnIds_of_from hF ▸ hF.fits.nodup
  -- the fuel covers the seed and one round per holder column
  have hlen : [(G.table, c.id, false)].length + G.sprouts.length <
      [(G.table, c.id)].length + (s.grow G).mappingCount + 1 + ([] : List Id).length := by
    have := hF.fits.length_sprouts_le_mappingCount
    simp only [List.length_singleton, List.length_nil]
    omega
  have hst₀ : st.db = db.grownBy sid (G.without []) := by
    rw [hst]
    refine (hg.grownBy_congr fun t ht => ?_).symm
    rw [SchemaGrowth.part_without]
    exact (hF.fits.parts t ht).without_eq fun _ _ h => absurd h List.not_mem_nil
  obtain ⟨n, st₁, hloop, gone, hgone, hdb⟩ := run_removalLoop_clears hg hF _ _ _ 0 _ st
    (SchemaGrowth.Clearing.start hn) hlen hst₀
  unfold cascadeKeyRemoval
  rw [run_bind_of_ok (run_schema hs')]
  simp only [List.map_cons, List.map_nil]
  rw [run_bind_of_ok hloop]
  by_cases hpos : n > 0
  · rw [if_pos hpos]
    exact ⟨n, _, rfl, gone, hgone, hdb⟩
  · rw [if_neg hpos]
    exact ⟨n, st₁, rfl, gone, hgone, hdb⟩

/-- Deleting the new column of a growth from the table it was put in drops, through the cascade,
every holder column below it, then the column itself: the snapshot is the one before the
growth. -/
theorem run_deleteColumn_grown (hg : db.Ground sid s) {c : Column} (hF : G.From s c)
    {t : Table} (ht : t ∈ s.tables) (htT : t.id = G.table) (hne : t.columns ≠ [])
    (hst : st.db = db.grownBy sid G) :
    ∃ st', (deleteColumn sid G.table c.id).run st = .ok () st' ∧ st'.db = db := by
  obtain ⟨i, hplaced⟩ := hF.placed
  have hn : (c.id :: G.sprouts.map (·.column.id)).Nodup := columnIds_of_from hF ▸ hF.fits.nodup
  have hcfresh : c.id ∉ t.mentionedIds :=
    hF.fits.fresh c.id (by rw [columnIds_of_from hF]; exact List.mem_cons_self) t ht
  have hs' : st.db.schema? sid = some (s.grow G) := by
    rw [hst]
    exact Database.schema?_grownBy hg.schema
  have hfind : ∀ G' : SchemaGrowth, (s.grow G').table? G.table = some (t.grow (G'.part t.id)) := by
    intro G'
    rw [← htT]
    exact Schema.table?_grow (Schema.table?_of_mem hg.tableIds ht)
  have hcin : c.id ∈ (G.part t.id).columnIds := by
    simp [SchemaGrowth.part, TableGrowth.columnIds, htT, hplaced]
  obtain ⟨c', hc'⟩ : ∃ c', (t.grow (G.part t.id)).column? c.id = some c' := by
    obtain ⟨c₀, hc₀, hid⟩ := List.mem_map.1 (Table.mem_grow_columnIds (t := t) hcin)
    exact Option.isSome_iff_exists.1 (List.find?_isSome.2 ⟨c₀, hc₀, by simp [hid]⟩)
  have hlen : (t.grow (G.part t.id)).columns.length ≠ 1 := by
    have hperm := (Table.grow_columnIds_perm (t := t) (g := G.part t.id)).length_eq
    simp only [List.length_map, List.length_append] at hperm
    have := List.length_pos_iff.2 hne
    have := List.length_pos_of_mem hcin
    omega
  -- no relationship maps the new column, so no key of another table needs it
  have hnofk : ∀ r ∈ (t.grow (G.part t.id)).relationships, ∀ m ∈ r.columns, m.fkColumnId ≠ c.id := by
    intro r hr m hm hmc
    obtain ⟨r₀, hr₀, rfl⟩ := List.mem_map.1 hr
    dsimp only [Relationship.withMappings] at hm
    obtain ⟨m₀, hm₀, n, rfl⟩ := exists_of_mem_renumber hm
    rcases List.mem_append.1 hm₀ with hown | hadded
    · have hmem := Table.mentions_fkColumn hr₀ hown
      exact hcfresh (by rw [← hmc]; exact hmem)
    · obtain ⟨p, hp, rfl⟩ := List.mem_map.1 hadded
      obtain ⟨y, hy, rfl⟩ := List.mem_map.1 (List.mem_filter.1 hp).1
      exact (List.nodup_cons.1 hn).1 (hmc ▸ List.mem_map_of_mem (List.mem_filter.1 hy).1)
  have hreq : (s.grow G).keyRequirement? (t.grow (G.part t.id)) c.id = none := by
    unfold Schema.keyRequirement?
    refine List.find?_eq_none.2 fun r hr => ?_
    rw [Bool.and_eq_true, not_and]
    intro _
    split
    · rw [List.any_eq_true]
      rintro ⟨m, hm, hmc⟩
      rw [Bool.and_eq_true, decide_eq_true_eq] at hmc
      exact hnofk r hr m hm hmc.1
    · exact Bool.false_ne_true
  -- the cascade drops every holder column; then the new column is detached
  obtain ⟨n, st₁, hcas, gone, hgone, hdb₁⟩ := run_cascadeKeyRemoval_clears hg hF hst
  have hcgone : c.id ∉ gone := fun h => (List.nodup_cons.1 hn).1 ((hgone c.id).1 h)
  have hs₁ : st₁.db.schema? sid = some (s.grow (G.without gone)) := by
    rw [hdb₁]
    exact Database.schema?_grownBy hg.schema
  unfold deleteColumn
  rw [run_bind_of_ok (run_column hs' (hfind G) hc'), run_bind_of_ok (run_table hs' (hfind G)),
    if_neg hlen, run_bind_of_ok (run_ensureKeyColumnRemovable_of_none hs' (hfind G) hreq),
    run_bind_of_ok hcas, run_modifyTable hs₁ (hfind _)]
  refine ⟨_, rfl, ?_⟩
  show st₁.db.updateTable sid G.table _ = db
  have hfits := hF.fits.without gone
  have hdetach : st₁.db.updateTable sid G.table (fun u => (u.detachColumn c.id).1) =
      db.grownBy sid ((G.without gone).without [c.id]) := by
    rw [hdb₁, ← htT]
    refine hg.updateTable_grownBy ht (fun t' ht' hid => ?_) ?_
    · -- the new column lies in its own table only
      rw [SchemaGrowth.part_without]
      refine (hfits.parts t' ht').without_eq fun x hx hxc => ?_
      rw [List.mem_singleton.1 hxc, SchemaGrowth.part_without, TableGrowth.mem_without_columnIds] at hx
      exact SchemaGrowth.not_mem_part_columnIds_of_ne_table (List.nodup_cons.1 hn).1
        (htT ▸ hid) hx.1
    · have hc₁ : c.id ∈ ((G.without gone).part t.id).columnIds := by
        rw [SchemaGrowth.part_without, TableGrowth.mem_without_columnIds]
        exact ⟨hcin, hcgone⟩
      rw [Table.detachColumn_grow (hg.settled t ht) (hfits.parts t ht) hc₁,
        SchemaGrowth.part_without [c.id]]
  rw [hdetach, SchemaGrowth.without_without]
  refine Database.grownBy_eq_self hg.schema fun u hu => ?_
  refine Table.grow_of_columnIds_eq_nil (hg.settled u hu) ((hF.fits.without _).parts u hu) ?_
  refine List.eq_nil_iff_forall_not_mem.2 fun x hx => ?_
  have hx := SchemaGrowth.mem_without_columnIds.1 ((SchemaGrowth.part_columnIds_sublist _).subset hx)
  rw [columnIds_of_from hF, List.mem_cons] at hx
  rcases hx with ⟨rfl | hx, hleft⟩
  · exact hleft (List.mem_append_right _ (List.mem_singleton_self _))
  · exact hleft (List.mem_append_left _ ((hgone x).2 hx))

end Removal

end EditM

/-! ## The operations on a snapshot -/

/-- **Deleting a created column gives the snapshot back**, on an accepted snapshot whose tables
have no empty index or constraint and no UNIQUE constraint restating their key, under any
configuration and id supply. -/
theorem Editor.apply_createColumn_deleteColumn {config config' : EditorConfig}
    {supply supply' : IdSupply} {db db₁ : Database} (hv : db.validate = .ok ()) {s : Schema}
    (hs : s ∈ db.schemas) (htidy : ∀ u ∈ s.tables, u.Tidy) {t : Table} (ht : t ∈ s.tables)
    (hne : t.columns ≠ []) (d : ColumnDraft)
    (happ : (Editor.apply config supply db (.createColumn s.id t.id d)).result = .ok db₁) :
    (Editor.apply config' supply' db₁ (.deleteColumn s.id t.id d.id)).result = .ok db := by
  unfold Editor.apply at happ
  split at happ
  next st hrun =>
    cases happ
    obtain ⟨c, G, hcd, hGT, hC, hdb⟩ := EditM.createColumn_grows hv hs htidy rfl hrun
    obtain ⟨st', hdel, hdb'⟩ := EditM.run_deleteColumn_grown (Database.ground_of_validate hv hs htidy)
      hC.growth ht hGT.symm hne
      (show ({ db := st.db, config := config', supply := supply' } : Session).db = _ from hdb)
    rw [hGT, hcd] at hdel
    rw [Editor.apply_result_of_ok (show (Operation.deleteColumn s.id t.id d.id).run.run
      { db := st.db, config := config', supply := supply' } = _ from hdel), hdb']
  next => cases happ

/-- A key column `region` of `orders`, not nullable. -/
def regionKey : ColumnDraft :=
  { id := ⟨"o2"⟩, name := "region", dataType := some "INT", nullable := false, primaryKey := true }

/-- `region` created in `orders`, copied into the key of `lines` through the identifying
relationship, then deleted: the snapshot comes back. -/
theorem Editor.orderLines_region_round_trip :
    ∃ db₁, (Editor.apply {} { seed := 0 } orderLines
        (.createColumn orderLinesSchema.id ordersTable.id regionKey)).result = .ok db₁ ∧
      (Editor.apply {} { seed := 0 } db₁
        (.deleteColumn orderLinesSchema.id ordersTable.id regionKey.id)).result = .ok orderLines := by
  have hv : orderLines.validate = .ok () := by rfl
  have hs : orderLinesSchema ∈ orderLines.schemas := List.mem_singleton_self _
  have ht : ordersTable ∈ orderLinesSchema.tables := List.mem_cons_self
  have htidy : ∀ u ∈ orderLinesSchema.tables, u.Tidy := by
    intro u hu
    simp only [orderLinesSchema, List.mem_cons, List.not_mem_nil, or_false] at hu
    rcases hu with rfl | rfl
    · exact ⟨by decide, by decide, by decide⟩
    · exact ⟨by decide, by decide, by decide⟩
  obtain ⟨db₁, happ⟩ : ∃ db₁, (Editor.apply {} { seed := 0 } orderLines
      (.createColumn orderLinesSchema.id ordersTable.id regionKey)).result = .ok db₁ := by
    have hok : (Editor.apply {} { seed := 0 } orderLines
        (.createColumn orderLinesSchema.id ordersTable.id regionKey)).result.toBool = true := by
      decide +kernel
    revert hok
    cases (Editor.apply {} { seed := 0 } orderLines
        (.createColumn orderLinesSchema.id ordersTable.id regionKey)).result with
    | error e => exact fun h => absurd h Bool.false_ne_true
    | ok db₁ => exact fun _ => ⟨db₁, rfl⟩
  exact ⟨db₁, happ, Editor.apply_createColumn_deleteColumn hv hs htidy ht (List.cons_ne_nil _ _) _ happ⟩

end SchemaDesign
