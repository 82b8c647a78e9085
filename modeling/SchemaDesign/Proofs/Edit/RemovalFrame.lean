import SchemaDesign.Proofs.Edit.RemovalCascade
import SchemaDesign.Proofs.Edit.Propagation
import SchemaDesign.Editor

/-!
# What a removal leaves alone

Seven operations remove parts of a schema: deleting a column, a table, a constraint or a
relationship, removing a column from a constraint or from a relationship, and making a
relationship non-identifying. Each may start the key-removal cascade. `Database.RemovalFrame`
says what such an operation may do to the rest of its schema:

* every mapping, but those of the relationship edited, is kept, or the column it references is
  gone, or it is identifying and the column it references lost a place in its table's key, or
  its holder column is gone from the target table (`Database.MappingFate`);
* every table but the target is unchanged unless it lost a mapping, and loses a column only if
  it lost a mapping on it and no relationship left maps it (`Table.Justified`);
* the other schemas are as they were.

Each operation's frame is read off the cascade's invariant `Database.Removing` by
`Removing.frame`, one lemma per operation (`EditM.deleteColumn_frame` and the others). Making a
relationship non-identifying first changes it in place, so its frame is taken from the changed
snapshot and carried back (`RemovalFrame.of_changeRelationship`); deleting a table ends by
dropping it (`Removing.frame_dropTable`).

Main statement `Editor.apply_removal_frame`: every successful removal of an accepted snapshot
keeps this frame. The frame is weaker than "a mapping goes only with its referenced column or
its key entry" in two places, both reached (`Editor.removals_drop_mappings_of_surviving_keys`):
deleting a column drops the mappings of the target's relationships on it, though the columns
they reference stay; and removing one of two key entries on a column cascades as if the
column left the key.

Making a relationship identifying and then non-identifying again need not give the snapshot
back: an identifying relationship below the holder that mapped a folded column before the fold
gains nothing from it, but loses that mapping and its holder column to the unfold
(`Editor.kindFlip_drops_prior_mapping`).
-/

namespace SchemaDesign

/-- The number of places column `cid` has in the primary keys of table `tid` of schema `sid`;
none without such a table. -/
def Database.keyEntries (db : Database) (sid tid cid : Id) : Nat :=
  match db.schema? sid with
  | some s =>
    match s.table? tid with
    | some t => t.keyEntries cid
    | none => 0
  | none => 0

/-- What became of mapping `m` of relationship `r`, held by table `t` of schema `sid`, when a
removal aimed at `target` changed `db` into `db'`. -/
inductive Database.MappingFate (sid : Id) (target : Option Id) (db db' : Database) (t : Table)
    (r : Relationship) (m : KeyMapping) : Prop
  /-- The table still holds it. -/
  | kept (t' : Table) (ht : db'.FindsTable sid t.id t') (hm : t'.Holds r m)
  /-- The column it references is gone. -/
  | referenceGone (h : ¬db'.HasColumn sid r.pkTableId m.pkColumnId)
  /-- It is identifying, and the column it references lost a place in its table's key. -/
  | keyShrunk (hi : r.isIdentifying = true)
      (h : db'.keyEntries sid r.pkTableId m.pkColumnId < db.keyEntries sid r.pkTableId m.pkColumnId)
  /-- It is held by the target, and its holder column is gone. -/
  | holderGone (ht : some t.id = target) (h : ¬db'.HasColumn sid t.id m.fkColumnId)

/-- What a removal in schema `sid`, aimed at table `target` and editing relationship `edited`,
may do: each mapping but the edited relationship's meets a `MappingFate`, each table but the
target changes only where it lost a mapping, and the other schemas are as they were. -/
structure Database.RemovalFrame (sid : Id) (target edited : Option Id) (db db' : Database) :
    Prop where
  others : ∀ s ∈ db.schemas, s.id ≠ sid → db'.schema? s.id = some s
  mappings : ∀ t, db.FindsTable sid t.id t → ∀ r ∈ t.relationships, some r.id ≠ edited →
    ∀ m ∈ r.columns, db.MappingFate sid target db' t r m
  tables : ∀ t, db.FindsTable sid t.id t → some t.id ≠ target →
    ∃ t', db'.FindsTable sid t.id t' ∧ t.Justified t'

/-- The schema, the target table and the edited relationship of a removal; `none` for an
operation that is not one. Making a relationship non-identifying aims at its holder. -/
def Operation.removalScope (db : Database) : Operation → Option (Id × Option Id × Option Id)
  | .deleteColumn s t _ => some (s, some t, none)
  | .deleteTable s t => some (s, some t, none)
  | .deleteConstraint s t _ => some (s, some t, none)
  | .removeColumnFromConstraint s t _ _ => some (s, some t, none)
  | .deleteRelationship s r => some (s, none, some r)
  | .removeColumnFromRelationship s r _ => some (s, none, some r)
  | .changeRelationshipKind s r .nonIdentifying =>
    some (s, ((db.schema? s).bind (·.relationship? r)).map (·.1.id), some r)
  | _ => none

/-- What a removal in schema `sid` relies on in the snapshot it starts from. -/
structure Database.RemovalBase (db : Database) (sid : Id) (s : Schema) : Prop where
  schema : db.schema? sid = some s
  schemaIds : (db.schemas.map (·.id)).Nodup
  distinct : s.Distinct
  relationshipIds : (s.relationships.map (·.id)).Nodup
  mapped : ∀ t ∈ s.tables, ∀ r ∈ t.relationships, r.columns ≠ []

theorem Table.columns_ne_nil_of_validateRelationship {s : Schema} {t : Table} {r : Relationship}
    (h : t.validateRelationship s r = .ok ()) : r.columns ≠ [] := by
  unfold validateRelationship at h
  obtain ⟨_, -, h⟩ := Except.exists_of_bind_eq_ok h
  split at h
  · obtain ⟨_, hens, -⟩ := Except.exists_of_bind_eq_ok h
    simpa using ensure_eq_ok hens
  · cases h

theorem Database.removalBase_of_validate {db : Database} (hv : db.validate = .ok ()) {sid : Id}
    {s : Schema} (hs : db.schema? sid = some s) : db.RemovalBase sid s := by
  have hn := labelledIds_nodup_of_validate hv
  have hsm : s ∈ db.schemas := List.mem_of_find?_eq_some hs
  refine ⟨hs, schemaIds_nodup hn, distinct_of_validate hv hsm, relationshipIds_nodup hn hsm,
    fun t ht r hr => ?_⟩
  exact Table.columns_ne_nil_of_validateRelationship
    (Table.validateRelationship_of_validateRelationships
      (Schema.validateRelationships_of_validate (schemas_validate hv s hsm) t ht) r hr)

theorem Table.Trimmed.mono_of_mem {cut cut' : Relationship → KeyMapping → Prop} {t t' : Table}
    (h : t.Trimmed cut t') (hcut : ∀ r ∈ t.relationships, ∀ m ∈ r.columns, cut r m → cut' r m) :
    t.Trimmed cut' t' where
  toShrinks := h.toShrinks
  lost r hr m hm := (h.lost r hr m hm).imp_right (hcut r hr m hm)

/-! ## Places in the key -/

/-- The places of column `c` in the primary keys among `ks`. -/
def Constraint.keyCount (c : Id) (ks : List Constraint) : Nat :=
  ((ks.filter (·.isPrimaryKey)).flatMap (·.columnIds)).count c

namespace Constraint

variable {c : Id}

theorem keyCount_append (ks ks' : List Constraint) :
    keyCount c (ks ++ ks') = keyCount c ks + keyCount c ks' := by
  simp only [keyCount, List.filter_append, List.flatMap_append, List.count_append]

theorem keyCount_cons (k : Constraint) (ks : List Constraint) :
    keyCount c (k :: ks) = (if k.isPrimaryKey then k.columnIds.count c else 0) + keyCount c ks := by
  unfold keyCount
  rw [List.filter_cons]
  split <;> simp [List.flatMap_cons, List.count_append]

theorem keyCount_filter_le (q : Constraint → Bool) (ks : List Constraint) :
    keyCount c (ks.filter q) ≤ keyCount c ks :=
  (keyColumns_sublist List.filter_sublist.sublistForall₂).count_le c

/-- Dropping the entries with one id, one of which is on column `c`, drops a place of `c`. -/
theorem count_filter_columnIds_lt {k : Constraint} {eid : Id} {e : ConstraintColumn}
    (he : e ∈ k.columns) (heid : e.id = eid) (hc : e.columnId = c) :
    ((k.columns.filter (·.id ≠ eid)).map (·.columnId)).count c < k.columnIds.count c := by
  unfold columnIds
  rw [List.count_eq_countP, List.count_eq_countP, List.countP_map, List.countP_map,
    List.countP_filter]
  have hsplit := List.countP_eq_countP_filter_add k.columns
    ((· == c) ∘ (·.columnId)) fun x => decide (x.id ≠ eid)
  rw [List.countP_filter, List.countP_filter] at hsplit
  have hpos : 0 < k.columns.countP fun x => ((· == c) ∘ (·.columnId)) x && !decide (x.id ≠ eid) :=
    List.countP_pos_iff.2 ⟨e, he, by simp [heid, hc]⟩
  omega

/-- Taking the columns `cs` out of the primary keys leaves none of them a place. -/
theorem keyCount_map_withoutColumns {cs : List Id} (hc : c ∈ cs) (ks : List Constraint) :
    keyCount c (ks.map fun k => if k.kind = .primaryKey then k.withoutColumns cs else k) = 0 := by
  induction ks with
  | nil => rfl
  | cons k ks ih =>
    rw [List.map_cons, keyCount_cons, ih, Nat.add_zero]
    by_cases hpk : k.kind = .primaryKey
    · rw [if_pos hpk]
      split
      · refine List.count_eq_zero.2 fun hmem => ?_
        unfold withoutColumns columnIds at hmem
        dsimp only at hmem
        rw [@map_renumber _ _ (fun c n => { c with seqNo := n }) ConstraintColumn.columnId
          (fun _ _ => rfl)] at hmem
        obtain ⟨e, he, hec⟩ := List.mem_map.1 hmem
        have hkept := (List.mem_filter.1 he).2
        rw [hec] at hkept
        simp [hc] at hkept
      · rfl
    · rw [if_neg hpk, if_neg (by simpa [isPrimaryKey] using hpk)]

end Constraint

theorem updateFirst_append_cons {α : Type} {p : α → Bool} {f : α → α} {x : α} (hx : p x = true) :
    ∀ {pre : List α} (post : List α), (∀ a ∈ pre, p a = false) →
      updateFirst p f (pre ++ x :: post) = pre ++ f x :: post
  | [], _, _ => by simp [updateFirst, hx]
  | a :: pre, post, hpre => by
    rw [List.cons_append, updateFirst, if_neg (by simp [hpre a List.mem_cons_self]),
      updateFirst_append_cons hx post fun b hb => hpre b (List.mem_cons_of_mem a hb)]
    rfl

namespace Table

variable {t : Table} {kid : Id} {k : Constraint} {c : Id}

theorem keyEntries_eq (t : Table) (c : Id) : t.keyEntries c = Constraint.keyCount c t.constraints :=
  rfl

/-- Deleting a primary key on column `c` drops a place of `c`. -/
theorem keyEntries_filter_lt (hk : t.constraint? kid = some k) (hpk : k.isPrimaryKey = true)
    (hc : c ∈ k.columnIds) :
    ({ t with constraints := t.constraints.filter (·.id ≠ kid) } : Table).keyEntries c <
      t.keyEntries c := by
  obtain ⟨-, pre, post, hsplit, hpre⟩ := List.find?_eq_some_iff_append.1 hk
  have hkid : k.id = kid := by simpa using List.find?_some hk
  have hpre' : pre.filter (·.id ≠ kid) = pre :=
    List.filter_eq_self.2 fun a ha => by simpa using hpre a ha
  rw [keyEntries_eq, keyEntries_eq]
  dsimp only
  rw [hsplit, List.filter_append, List.filter_cons_of_neg (by simp [hkid]), hpre',
    Constraint.keyCount_append, Constraint.keyCount_append, Constraint.keyCount_cons, if_pos hpk]
  have hle := Constraint.keyCount_filter_le (c := c) (fun x => decide (x.id ≠ kid)) post
  have hpos : 0 < k.columnIds.count c := List.count_pos_iff.2 hc
  omega

/-- Narrowing a primary key to fewer places of column `c` drops a place of `c`. -/
theorem keyEntries_updateConstraint_lt {f : Constraint → Constraint}
    (hk : t.constraint? kid = some k) (hpk : k.isPrimaryKey = true) (hkind : (f k).kind = k.kind)
    (hlt : (f k).columnIds.count c < k.columnIds.count c) :
    (t.updateConstraint kid f).keyEntries c < t.keyEntries c := by
  obtain ⟨hkid, pre, post, hsplit, hpre⟩ := List.find?_eq_some_iff_append.1 hk
  have hpk' : (f k).isPrimaryKey = true := by
    unfold Constraint.isPrimaryKey at hpk ⊢
    rw [hkind]
    exact hpk
  rw [keyEntries_eq, keyEntries_eq, updateConstraint]
  dsimp only
  rw [hsplit, @updateFirst_append_cons Constraint (fun x => decide (x.id = kid)) f k hkid pre post
      fun a ha => by simpa using hpre a ha,
    Constraint.keyCount_append, Constraint.keyCount_append, Constraint.keyCount_cons,
    Constraint.keyCount_cons, if_pos hpk, if_pos hpk']
  omega

/-- A column of the primary key has a place in it. -/
theorem keyEntries_pos_of_isKeyColumn (h : t.isKeyColumn c = true) : 0 < t.keyEntries c := by
  unfold isKeyColumn at h
  split at h
  · next pk hpk =>
    have hkind : pk.isPrimaryKey = true := by
      simpa [Constraint.isPrimaryKey] using List.find?_some hpk
    rw [Constraint.containsColumn, List.any_eq_true] at h
    obtain ⟨e, he, hec⟩ := h
    have hc : c ∈ pk.columnIds := List.mem_map.2 ⟨e, he, by simpa using hec⟩
    exact List.count_pos_iff.2 (List.mem_flatMap.2
      ⟨pk, List.mem_filter.2 ⟨List.mem_of_find?_eq_some hpk, hkind⟩, hc⟩)
  · cases h

end Table

namespace Database

variable {db db' : Database} {sid tid c : Id}

theorem keyEntries_of_findsTable {t : Table} (ht : db.FindsTable sid tid t) :
    db.keyEntries sid tid c = t.keyEntries c := by
  obtain ⟨s, hs, hts⟩ := ht
  simp only [keyEntries, hs, hts]

theorem keyEntries_of_not_findsTable (ht : ∀ t, ¬db.FindsTable sid tid t) :
    db.keyEntries sid tid c = 0 := by
  unfold keyEntries
  split
  · next s hs =>
    split
    · next t hts => exact absurd ⟨s, hs, hts⟩ (ht t)
    · rfl
  · rfl

/-- Removals only take places in the key. -/
theorem keyEntries_le_of_shrinks (h : db.Tablewise Table.Shrinks db') :
    db'.keyEntries sid tid c ≤ db.keyEntries sid tid c := by
  by_cases hex : ∃ t', db'.FindsTable sid tid t'
  · obtain ⟨t', ht'⟩ := hex
    obtain ⟨t, ht, hs⟩ := Tablewise.findsTable (fun _ _ h => h.id_eq) h ht'
    rw [keyEntries_of_findsTable ht', keyEntries_of_findsTable ht]
    exact hs.keyEntries_le c
  · rw [keyEntries_of_not_findsTable fun t ht => hex ⟨t, ht⟩]
    exact Nat.zero_le _

end Database

/-! ## Relationship edits -/

/-- The relationship without its mapping `mid`, renumbered. -/
def Relationship.withoutMapping (r : Relationship) (mid : Id) : Relationship :=
  let kept := r.columns.filter (·.id ≠ mid)
  { r with columns := renumber (fun m n => { m with seqNo := n }) kept }

/-- The table with relationship `rid` changed by `f`, and relationships left without mappings
dropped. -/
def Table.editRelationship (t : Table) (rid : Id) (f : Relationship → Relationship) : Table :=
  let t' := t.updateRelationships rid f
  { t' with relationships := t'.relationships.filter (!·.columns.isEmpty) }

namespace Table

variable {t : Table} {rid : Id} {f : Relationship → Relationship}

/-- Editing one relationship by a trim trims the table, cutting only that relationship. -/
theorem trimmed_editRelationship (hf : ∀ r, (f r).TrimOf r) :
    t.Trimmed (fun r _ => r.id = rid) (t.editRelationship rid f) where
  head := rfl
  columns := List.Sublist.refl _
  relationships := sublistForall₂_filter_map
    (fun r => by split; exacts [hf r, Relationship.TrimOf.refl r]) _ _
  constraints := Std.Refl.refl _
  lost r hr m hm := by
    by_cases hid : r.id = rid
    · exact .inr hid
    · refine .inl ⟨r, List.mem_filter.2 ⟨List.mem_map.2 ⟨r, hr, by simp [hid]⟩, ?_⟩, rfl,
        List.mem_map_of_mem hm⟩
      simpa using List.ne_nil_of_mem hm

/-- After dropping mapping `mid` from relationship `rid`, no relationship that is `rid` but for
its mappings holds it. -/
theorem not_holds_editRelationship {r₀ : Relationship} (hr₀ : r₀.id = rid) {m : KeyMapping}
    {mid : Id} (hm : m.id = mid) :
    ¬(t.editRelationship rid (·.withoutMapping mid)).Holds r₀ m := by
  rintro ⟨r', hr', hhead, hl⟩
  have hid : r'.id = rid := (Relationship.id_eq_of_head hhead).trans hr₀
  obtain ⟨r, -, rfl⟩ := List.mem_map.1 (List.mem_filter.1 hr').1
  have hrid : r.id = rid := by
    split at hid
    · next h => simpa using h
    · exact hid
  rw [if_pos (by simpa using hrid)] at hl
  unfold Relationship.withoutMapping at hl
  dsimp only at hl
  rw [@map_renumber _ _ (fun m n => { m with seqNo := n }) KeyMapping.link (fun _ _ => rfl)] at hl
  obtain ⟨m', hm', hlink⟩ := List.mem_map.1 hl
  have hid' : m'.id = m.id := congrArg (·.1) hlink
  simp [hid', hm] at hm'

end Table

namespace Database.RemovalBase

variable {db : Database} {sid : Id} {s : Schema}

theorem mem_tables (hb : db.RemovalBase sid s) {tid : Id} {t : Table} (ht : db.FindsTable sid tid t) :
    t ∈ s.tables := by
  obtain ⟨s', hs', hts⟩ := ht
  rw [hb.schema, Option.some.injEq] at hs'
  subst hs'
  exact (Schema.mem_of_table? hts).1

theorem table_distinct (hb : db.RemovalBase sid s) {tid : Id} {t : Table}
    (ht : db.FindsTable sid tid t) : t.Distinct :=
  hb.distinct.table t (hb.mem_tables ht)

end Database.RemovalBase

namespace Database.Removing

variable {sid : Id} {target : Option Id} {cut : Relationship → KeyMapping → Prop}
  {gone : List (Id × Id)} {db₀ db : Database}

theorem table_distinct {s₀ : Schema} (h : db₀.Removing sid target cut gone db)
    (hb : db₀.RemovalBase sid s₀) {tid : Id} {t : Table} (ht : db.FindsTable sid tid t) :
    t.Distinct := by
  obtain ⟨s, hs, hts⟩ := ht
  exact (h.trimmed.distinct hb.schema hb.distinct hs).table t (Schema.mem_of_table? hts).1

/-- The frame read off the state: a mapping not held was cut, or references a column in
`gone`, which is gone. -/
theorem frame {edited : Option Id} (h : db₀.Removing sid target cut gone db)
    (hcut : ∀ t₀, db₀.FindsTable sid t₀.id t₀ → ∀ r ∈ t₀.relationships, some r.id ≠ edited →
      ∀ m ∈ r.columns, cut r m → db₀.MappingFate sid target db t₀ r m) :
    db₀.RemovalFrame sid target edited db where
  others := h.trimmed.others
  mappings t₀ ht₀ r hr hne m hm := by
    obtain ⟨t, ht, htrim, -⟩ :=
      Database.Tablewise.findsTable_left (fun _ _ h => h.1.id_eq) h.trimmed.tables ht₀
    rcases htrim.lost r hr m hm with hheld | hc | hgone
    · exact .kept t ht hheld
    · exact hcut t₀ ht₀ r hr hne m hm hc
    · exact .referenceGone (h.gone _ hgone)
  tables t₀ ht₀ hne := by
    obtain ⟨t, ht, -, hjust⟩ :=
      Database.Tablewise.findsTable_left (fun _ _ h => h.1.id_eq) h.trimmed.tables ht₀
    exact ⟨t, ht, hjust hne⟩

end Database.Removing

/-! ## A relationship changed in place -/

theorem map_updateFirst_of_key {α β : Type} {key : α → β} {p : α → Bool} {f : α → α}
    (xs : List α) (hf : ∀ x, xs.find? p = some x → key (f x) = key x) :
    (updateFirst p f xs).map key = xs.map key :=
  forall₂_map_eq (@forall₂_updateFirst α (fun a b => key b = key a) (fun _ => rfl) p f xs hf)
    fun _ _ h => h

/-- The table with its first relationship `rid` changed by `f`, as `modifyRelationship` puts it
back. -/
def Table.changeRelationship (t : Table) (rid : Id) (f : Relationship → Relationship) : Table :=
  { t with relationships := updateFirst (·.id = rid) f t.relationships }

theorem Table.Distinct.changeRelationship {t : Table} (h : t.Distinct) {rid : Id}
    {f : Relationship → Relationship} (hid : ∀ r, (f r).id = r.id)
    (hfk : ∀ r, (f r).fkTableId = r.fkTableId) : (t.changeRelationship rid f).Distinct where
  columns := h.columns
  relationships := by
    rw [Table.changeRelationship, map_updateFirst_of_key _ fun r _ => hid r]
    exact h.relationships
  holder r hr := by
    rcases mem_updateFirst hr with hr | ⟨x, hx, rfl⟩
    · exact h.holder r hr
    · rw [hfk]
      exact h.holder x (List.mem_of_find?_eq_some hx)

/-- Replacing the first table with an id by a distinct table with that id keeps a schema
distinct. -/
theorem Schema.Distinct.replace {s : Schema} (h : s.Distinct) {tid : Id} {g : Table → Table}
    (hg : ∀ t, s.tables.find? (·.id = tid) = some t → (g t).id = t.id ∧ (g t).Distinct) :
    ({ s with tables := updateFirst (·.id = tid) g s.tables } : Schema).Distinct where
  tables := by
    rw [map_updateFirst_of_key _ fun t ht => (hg t ht).1]
    exact h.tables
  table t ht := by
    rcases mem_updateFirst ht with ht | ⟨x, hx, rfl⟩
    · exact h.table t ht
    · exact (hg x hx).2

namespace Database

variable {db : Database} {sid tid : Id} {f : Table → Table}

theorem schema?_updateTable {s : Schema} (hs : db.schema? sid = some s) :
    (db.updateTable sid tid f).schema? sid =
      some { s with tables := updateFirst (·.id = tid) f s.tables } := by
  rw [updateTable, schema?, find?_updateFirst (by simp)]
  rw [schema?] at hs
  rw [hs]
  rfl

theorem schemaIds_updateTable (db : Database) (sid tid : Id) (f : Table → Table) :
    (db.updateTable sid tid f).schemas.map (·.id) = db.schemas.map (·.id) :=
  map_updateFirst_of_key _ fun _ _ => rfl

/-- A change of table `tid` that keeps its id leaves what the lookup of another table finds. -/
theorem findsTable_updateTable_of_ne (hf : ∀ t, t.id = tid → (f t).id = tid) {tid' : Id}
    (hne : tid' ≠ tid) {t : Table} :
    (db.updateTable sid tid f).FindsTable sid tid' t ↔ db.FindsTable sid tid' t := by
  have hdisj : ∀ x : Table, decide (x.id = tid) = true →
      decide (x.id = tid') = false ∧ decide ((f x).id = tid') = false := by
    intro x hx
    have hx' : x.id = tid := by simpa using hx
    exact ⟨by simp [hx', Ne.symm hne], by simp [hf x hx', Ne.symm hne]⟩
  simp only [FindsTable, updateTable, schema?, Schema.table?]
  rw [find?_updateFirst (by simp)]
  constructor
  · rintro ⟨s', hs', ht'⟩
    obtain ⟨s, hs, rfl⟩ := Option.map_eq_some_iff.1 hs'
    rw [find?_updateFirst_of_disjoint hdisj] at ht'
    exact ⟨s, hs, ht'⟩
  · rintro ⟨s, hs, ht⟩
    refine ⟨_, by rw [hs]; rfl, ?_⟩
    rw [find?_updateFirst_of_disjoint hdisj]
    exact ht

/-- Snapshots whose tables `tid` have the same constraints give columns the same places in the
key. -/
theorem keyEntries_congr {db' : Database} {tid : Id}
    (h : ∀ t', db'.FindsTable sid tid t' → ∃ t, db.FindsTable sid tid t ∧ t'.constraints = t.constraints)
    (h' : ∀ t, db.FindsTable sid tid t → ∃ t', db'.FindsTable sid tid t') (c : Id) :
    db'.keyEntries sid tid c = db.keyEntries sid tid c := by
  by_cases hex : ∃ t', db'.FindsTable sid tid t'
  · obtain ⟨t', ht'⟩ := hex
    obtain ⟨t, ht, hk⟩ := h t' ht'
    rw [keyEntries_of_findsTable ht', keyEntries_of_findsTable ht, Table.keyEntries_eq,
      Table.keyEntries_eq, hk]
  · have hnone : ∀ t, ¬db.FindsTable sid tid t := fun t ht => hex (h' t ht)
    rw [keyEntries_of_not_findsTable fun t ht => hex ⟨t, ht⟩, keyEntries_of_not_findsTable hnone]

theorem MappingFate.of_keyEntries {target : Option Id} {db₁ db' : Database} {t₁ t : Table}
    {r : Relationship} {m : KeyMapping}
    (hk : ∀ tid c, db₁.keyEntries sid tid c = db.keyEntries sid tid c) (ht : t₁.id = t.id) :
    db₁.MappingFate sid target db' t₁ r m → db.MappingFate sid target db' t r m
  | .kept t' ht' hm => .kept t' (ht ▸ ht') hm
  | .referenceGone h => .referenceGone h
  | .keyShrunk hi h => .keyShrunk hi (hk _ _ ▸ h)
  | .holderGone ht' h => .holderGone (ht ▸ ht') (ht ▸ h)

end Database

/-- Changing a relationship of one table in place, keeping its id and holder, leaves a distinct
schema. -/
theorem Database.RemovalBase.distinct_changeRelationship {db : Database} {sid : Id} {s : Schema}
    (hb : db.RemovalBase sid s) {holder : Table}
    (hholder : holder ∈ s.tables) {rid : Id} {f : Relationship → Relationship}
    (hid : ∀ r, (f r).id = r.id) (hfk : ∀ r, (f r).fkTableId = r.fkTableId) :
    ∃ s₁, (db.updateTable sid holder.id fun _ => holder.changeRelationship rid f).schema? sid =
      some s₁ ∧ s₁.Distinct := by
  refine ⟨_, Database.schema?_updateTable hb.schema, hb.distinct.replace fun x hx => ?_⟩
  have hxh : x = holder :=
    Option.some.inj (hx.symm.trans (Schema.table?_of_mem hb.distinct.tables hholder))
  rw [hxh]
  exact ⟨rfl, (hb.distinct.table holder hholder).changeRelationship hid hfk⟩

/-- A removal that begins by changing relationship `rid` of its target in place, and keeps the
frame from the changed snapshot, keeps it from the snapshot before the change. -/
theorem Database.RemovalFrame.of_changeRelationship {db db' : Database} {sid hid rid : Id}
    {holder : Table} (hholder : db.FindsTable sid hid holder) {f : Relationship → Relationship}
    (h : (db.updateTable sid hid fun _ => holder.changeRelationship rid f).RemovalFrame sid
      (some hid) (some rid) db') :
    db.RemovalFrame sid (some hid) (some rid) db' := by
  obtain rfl := hholder.id_eq
  have hid : ∀ t : Table, t.id = holder.id → (holder.changeRelationship rid f).id = holder.id :=
    fun _ _ => rfl
  -- the change leaves every table's constraints, so every column's places in the key
  have hk : ∀ tid c, (db.updateTable sid holder.id fun _ => holder.changeRelationship rid f).keyEntries
      sid tid c = db.keyEntries sid tid c := by
    intro tid c
    by_cases htid : tid = holder.id
    · subst htid
      refine keyEntries_congr (fun t' ht' => ?_) (fun t ht => ?_) c
      · obtain ⟨t, ht, rfl⟩ := (findsTable_updateTable hid).1 ht'
        exact ⟨t, ht, by rw [ht.unique hholder]; rfl⟩
      · exact ⟨_, (findsTable_updateTable hid).2 ⟨t, ht, rfl⟩⟩
    · exact keyEntries_congr (fun t' ht' => ⟨t', (findsTable_updateTable_of_ne hid htid).1 ht', rfl⟩)
        (fun t ht => ⟨t, (findsTable_updateTable_of_ne hid htid).2 ht⟩) c
  refine ⟨fun s hsm hne => h.others s ?_ hne, fun t ht r hr hne m hm => ?_, fun t ht hne => ?_⟩
  · refine (mem_updateFirst_of_mem hsm).resolve_right fun hfind => hne ?_
    simpa using List.find?_some hfind.1
  · by_cases htid : t.id = holder.id
    · -- the holder: the relationships other than `rid` stay as they were
      have htt : t = holder := ht.unique (htid ▸ hholder)
      rw [htt] at hr ⊢
      have hr₁ : r ∈ (holder.changeRelationship rid f).relationships :=
        (mem_updateFirst_of_mem hr).resolve_right fun hfind =>
          hne (congrArg some (by simpa using List.find?_some hfind.1))
      exact (h.mappings (holder.changeRelationship rid f)
        ((findsTable_updateTable hid).2 ⟨holder, hholder, rfl⟩) r hr₁ hne m hm).of_keyEntries hk
        (show (holder.changeRelationship rid f).id = holder.id from rfl)
    · exact (h.mappings t ((findsTable_updateTable_of_ne hid htid).2 ht) r hr hne m
        hm).of_keyEntries hk rfl
  · have htid : t.id ≠ holder.id := fun e => hne (congrArg some e)
    exact h.tables t ((findsTable_updateTable_of_ne hid htid).2 ht) hne

/-! ## A table dropped -/

/-- The snapshot without the tables `tid` of schema `sid`, as deleting a table leaves it. -/
def Database.dropTable (db : Database) (sid tid : Id) : Database :=
  let drop (s : Schema) : Schema := { s with tables := s.tables.filter (·.id ≠ tid) }
  { db with schemas := updateFirst (·.id = sid) drop db.schemas }

/-- Looking a key up among the items without key `a` finds nothing for `a`, and what it found
before for any other key. -/
theorem find?_filter_key_ne {α : Type} (key : α → Id) (xs : List α) (a x : Id) :
    (xs.filter (key · ≠ a)).find? (key · = x) = if x = a then none else xs.find? (key · = x) := by
  rw [List.find?_filter]
  split
  · next hx =>
    rw [List.find?_eq_none]
    intro b _
    simp [hx]
  · next hx =>
    refine List.find?_congr fun b _ => ?_
    by_cases hb : key b = x
    · simp [hb, hx]
    · simp [hb]

theorem Schema.table?_filter_ne (s : Schema) (tid x : Id) :
    ({ s with tables := s.tables.filter (·.id ≠ tid) } : Schema).table? x =
      if x = tid then none else s.table? x :=
  find?_filter_key_ne Table.id s.tables tid x

/-- After dropping table `tid`, a lookup finds what it found before, unless it looks for `tid`. -/
theorem Database.findsTable_dropTable {db : Database} {sid tid x : Id} {t : Table} :
    (db.dropTable sid tid).FindsTable sid x t ↔ x ≠ tid ∧ db.FindsTable sid x t := by
  simp only [FindsTable, dropTable, schema?]
  rw [find?_updateFirst (by simp)]
  constructor
  · rintro ⟨s', hs', ht'⟩
    obtain ⟨s, hs, rfl⟩ := Option.map_eq_some_iff.1 hs'
    rw [Schema.table?_filter_ne] at ht'
    split at ht'
    · cases ht'
    · next hx => exact ⟨hx, s, hs, ht'⟩
  · rintro ⟨hx, s, hs, ht⟩
    refine ⟨_, by rw [hs]; rfl, ?_⟩
    rw [Schema.table?_filter_ne, if_neg hx]
    exact ht

/-- A relationship a table deletion removes references the table or is held by it. -/
theorem Schema.exists_of_mem_attachedRelationships {s : Schema} {t : Table} (ht : t ∈ s.tables)
    (hd : t.Distinct) {rid : Id} (h : rid ∈ s.attachedRelationships t) :
    ∃ r ∈ s.relationships, r.id = rid ∧ (r.pkTableId = t.id ∨ r.fkTableId = t.id) := by
  unfold attachedRelationships referencing at h
  dsimp only at h
  rcases List.mem_append.1 h with h | h
  · obtain ⟨r, hr, rfl⟩ := List.mem_map.1 h
    obtain ⟨hr, hpk⟩ := List.mem_filter.1 hr
    exact ⟨r, hr, rfl, .inl (by simpa using hpk)⟩
  · obtain ⟨r, hr, rfl⟩ := List.mem_map.1 (List.mem_filter.1 ((dedupBy_sublist _ _).subset h)).1
    exact ⟨r, List.mem_flatMap.2 ⟨t, ht, hr⟩, rfl, .inr (hd.holder r hr)⟩

/-- The frame of a removal that ends by dropping its target: a mapping it cut, held by another
table, references the target. -/
theorem Database.Removing.frame_dropTable {sid tid : Id} {cut : Relationship → KeyMapping → Prop}
    {gone : List (Id × Id)} {db₀ db : Database} (h : db₀.Removing sid (some tid) cut gone db)
    (hcut : ∀ t₀, db₀.FindsTable sid t₀.id t₀ → ∀ r ∈ t₀.relationships, ∀ m ∈ r.columns,
      cut r m → t₀.id ≠ tid → r.pkTableId = tid) :
    db₀.RemovalFrame sid (some tid) none (db.dropTable sid tid) where
  others s hsm hne := by
    rw [Database.dropTable, Database.schema?, find?_updateFirst_of_disjoint]
    · exact h.trimmed.others s hsm hne
    · intro x hx
      have hx' : x.id = sid := by simpa using hx
      exact ⟨by simp [hx', Ne.symm hne], by simp [hx', Ne.symm hne]⟩
  mappings t₀ ht₀ r hr _ m hm := by
    have hnone : ∀ c, ¬(db.dropTable sid tid).HasColumn sid tid c := by
      rintro _ ⟨_, ht, -⟩
      exact (findsTable_dropTable.1 ht).1 rfl
    by_cases htid : t₀.id = tid
    · exact .holderGone (congrArg some htid) (htid ▸ hnone _)
    obtain ⟨t, ht, htrim, -⟩ :=
      Database.Tablewise.findsTable_left (fun _ _ h => h.1.id_eq) h.trimmed.tables ht₀
    rcases htrim.lost r hr m hm with hheld | hc | hgone
    · exact .kept t (findsTable_dropTable.2 ⟨htid, ht⟩) hheld
    · exact .referenceGone (hcut t₀ ht₀ r hr m hm hc htid ▸ hnone _)
    · refine .referenceGone fun hc => ?_
      obtain ⟨t', ht', hc'⟩ := hc
      exact h.gone _ hgone ⟨t', (findsTable_dropTable.1 ht').2, hc'⟩
  tables t₀ ht₀ hne := by
    obtain ⟨t, ht, -, hjust⟩ :=
      Database.Tablewise.findsTable_left (fun _ _ h => h.1.id_eq) h.trimmed.tables ht₀
    exact ⟨t, findsTable_dropTable.2 ⟨fun e => hne (congrArg some e), ht⟩, hjust hne⟩

theorem cutStable_none : CutStable fun (_ : Relationship) (_ : KeyMapping) => False :=
  fun _ _ _ _ _ _ h => h

theorem cutStable_relationship (rid : Id) : CutStable fun r (_ : KeyMapping) => r.id = rid :=
  fun _ _ _ _ hhead _ h => (Relationship.id_eq_of_head hhead).trans h

namespace EditM

open Database

variable {sid : Id} {db₀ : Database} {s₀ : Schema}

/-- After detaching column `c` from table `tid`, whose columns have distinct ids, the column is
gone. -/
theorem detach_gone {tid c : Id} {st st' : Session} {u : Unit}
    (hd : ∀ t, st.db.FindsTable sid tid t → (t.columns.map (·.id)).Nodup)
    (hrun : (modifyTable sid tid fun t => (t.detachColumn c).1).run st = .ok u st') :
    ¬st'.db.HasColumn sid tid c := by
  rintro ⟨t', ht', hmem⟩
  rw [(modifyTable_run hrun).1] at ht'
  obtain ⟨t, ht, rfl⟩ := (Database.findsTable_updateTable
    fun t h => (Table.shrinks_detachColumn t c).id_eq.trans h).1 ht'
  exact Table.not_mem_detachColumn (hd t ht) c hmem

theorem run_ite_guard {c : Prop} [Decidable c] {α : Type} {x : EditM PUnit} {k : PUnit → EditM α}
    (hx : Keeps Eq x) {st st' : Session} {a : α}
    (h : (if c then x >>= k else k ()).run st = .ok a st') :
    ∃ st₁ : Session, st₁.db = st.db ∧ (k ()).run st₁ = .ok a st' := by
  split at h
  · obtain ⟨⟨⟩, st₁, h₁, h₂⟩ := run_bind_ok h
    exact ⟨st₁, (hx _ _ _ h₁).symm, h₂⟩
  · exact ⟨st, rfl, h⟩

theorem sublistForall₂_updateFirst {α : Type} {R : α → α → Prop} [Std.Refl R] (p : α → Bool)
    (f : α → α) (xs : List α) (hf : ∀ x, xs.find? p = some x → R (f x) x) :
    List.SublistForall₂ R (updateFirst p f xs) xs :=
  List.sublistForall₂_iff.2 ⟨xs, (@forall₂_updateFirst α (flip R)
    (fun a => (Std.Refl.refl a : R a a)) p f xs hf).flip, List.Sublist.refl _⟩

theorem keyEntries_modifyTable {tid c : Id} {f : Table → Table} {st st' : Session} {u : Unit}
    (hrun : (modifyTable sid tid f).run st = .ok u st') (hf : ∀ t, t.id = tid → (f t).id = tid)
    {t : Table} (ht : st.db.FindsTable sid tid t) :
    st'.db.keyEntries sid tid c = (f t).keyEntries c := by
  rw [(modifyTable_run hrun).1]
  exact Database.keyEntries_of_findsTable ((Database.findsTable_updateTable hf).2 ⟨t, ht, rfl⟩)

/-- A change of constraints on the target loses no mapping. -/
theorem modifyConstraints_removing {cut : Relationship → KeyMapping → Prop} (hcut : CutStable cut)
    {gone : List (Id × Id)} {tid : Id} {f : List Constraint → List Constraint}
    (hf : ∀ ks, List.SublistForall₂ Constraint.NarrowOf (f ks) ks) {st st' : Session} {u : Unit}
    (h : db₀.Removing sid (some tid) cut gone st.db)
    (hrun : (modifyTable sid tid fun t => { t with constraints := f t.constraints }).run st =
      .ok u st') : db₀.Removing sid (some tid) cut gone st'.db :=
  modifyTable_removing hcut (fun _ t ht₀ _ _ =>
    ⟨@Table.trimmed_of_constraints _ t { t with constraints := f t.constraints } rfl rfl rfl
      (hf t.constraints),
      fun hne => absurd (congrArg some (Database.FindsTable.id_eq ht₀)) hne⟩) h hrun

theorem deleteColumn_frame (hb : db₀.RemovalBase sid s₀) {tid cid : Id} {st st' : Session}
    {u : Unit} (hst : st.db = db₀) (hrun : (deleteColumn sid tid cid).run st = .ok u st') :
    db₀.RemovalFrame sid (some tid) none st'.db := by
  unfold deleteColumn at hrun
  obtain ⟨c, st₁, h₁, h₂⟩ := run_bind_ok hrun
  have hst₁ : st.db = st₁.db := keeps_column sid tid cid st c st₁ h₁
  obtain ⟨t, st₂, h₃, h₄⟩ := run_bind_ok h₂
  obtain ⟨rfl, ht⟩ := table_run h₃
  split at h₄
  · obtain ⟨_, _, hthrow, -⟩ := run_bind_ok h₄
    cases hthrow
  · obtain ⟨u₁, st₃, h₅, h₆⟩ := run_bind_ok h₄
    have hst₃ : st₂.db = st₃.db := (keeps_ensureKeyColumnRemovable sid tid cid : Keeps Eq _) _ _ _ h₅
    obtain ⟨n, st₄, h₇, h₈⟩ := run_bind_ok h₆
    have hbase : CutStable fun r m => r.fkTableId = tid ∧ m.fkColumnId = cid := by
      intro r r' m m' hhead hlink h
      rw [Relationship.fkTableId_eq_of_head hhead,
        show m'.fkColumnId = m.fkColumnId from congrArg (·.2.1) hlink]
      exact h
    have h₀ : db₀.Removing sid (some tid) (fun r m => r.fkTableId = tid ∧ m.fkColumnId = cid) []
        st₃.db := by
      rw [← hst₃, ← hst₁, hst]
      exact Removing.refl db₀ hb.schemaIds
    obtain ⟨gone, hg⟩ := cascadeKeyRemoval_removing hb.schema hb.distinct hbase h₀ h₇
    have hdetach := modifyTable_removing (hbase.or seedCut_stable) (fun t₀ t ht₀ ht _ => by
      have hd := hg.table_distinct hb ht
      refine ⟨(Table.trimmed_detachColumn t cid).mono_of_mem fun r hr m _ hfk =>
        .inl (.inl ⟨(hd.holder r hr).trans (Database.FindsTable.id_eq ht), hfk⟩), fun hne => ?_⟩
      exact absurd (congrArg some (Database.FindsTable.id_eq ht₀)) hne) hg h₈
    have hgone : ¬st'.db.HasColumn sid tid cid :=
      detach_gone (fun t ht => (hg.table_distinct hb ht).columns) h₈
    refine hdetach.frame fun t₀ ht₀ r hr _ m _ hc => ?_
    rcases hc with ⟨hfk, hcol⟩ | ⟨hseed, -⟩
    · have hholder : r.fkTableId = t₀.id := (hb.table_distinct ht₀).holder r hr
      refine .holderGone (by rw [← hholder, hfk]) ?_
      rw [← hholder, hfk, hcol]
      exact hgone
    · obtain ⟨hpk, hkey⟩ := Prod.mk.inj (List.mem_singleton.1 hseed)
      refine .referenceGone ?_
      rw [hpk, hkey]
      exact hgone

theorem deleteConstraint_frame (hb : db₀.RemovalBase sid s₀) {tid kid : Id} {st st' : Session}
    {u : Unit} (hst : st.db = db₀) (hrun : (deleteConstraint sid tid kid).run st = .ok u st') :
    db₀.RemovalFrame sid (some tid) none st'.db := by
  unfold deleteConstraint at hrun
  obtain ⟨k, st₁, h₁, h₂⟩ := run_bind_ok hrun
  obtain ⟨rfl, t, ht, hk⟩ := constraint_run h₁
  obtain ⟨st₂, hst₂, h₄⟩ := run_ite_guard
    (Keeps.forM (fun c => (keeps_ensureKeyColumnRemovable sid tid c : Keeps Eq _)) _) h₂
  obtain ⟨u₂, st₃, h₅, h₆⟩ := run_bind_ok h₄
  have h₀ : db₀.Removing sid (some tid) (fun _ _ => False) [] st₂.db := by
    rw [hst₂, hst]
    exact Removing.refl db₀ hb.schemaIds
  have hdrop := modifyConstraints_removing cutStable_none
    (fun ks => List.filter_sublist.sublistForall₂) h₀ h₅
  split at h₆
  · next hpk =>
    -- the key columns each lost a place, and the cascade only takes more
    have hlt : ∀ c ∈ k.columnIds, st₃.db.keyEntries sid tid c < db₀.keyEntries sid tid c := by
      intro c hc
      rw [keyEntries_modifyTable h₅ (fun _ h => h) (hst₂ ▸ ht), ← hst,
        Database.keyEntries_of_findsTable ht]
      exact Table.keyEntries_filter_lt hk hpk hc
    obtain ⟨n, st₄, h₇, h₈⟩ := run_bind_ok h₆
    obtain ⟨-, rfl⟩ := pure_run h₈
    obtain ⟨gone, hg⟩ := cascadeKeyRemoval_removing hb.schema hb.distinct cutStable_none hdrop h₇
    have hshrinks := shrinks_cascadeKeyRemoval sid _ true st₃ n st₄ h₇
    refine hg.frame fun t₀ _ r _ _ m _ hc => ?_
    rcases hc with hc | ⟨hseed, hi⟩
    · exact hc.elim
    · obtain ⟨c, hc, heq⟩ := List.mem_map.1 hseed
      obtain ⟨hpk', hkey⟩ := Prod.mk.inj heq
      refine .keyShrunk (hi.resolve_left Bool.noConfusion) ?_
      rw [← hpk', ← hkey]
      exact lt_of_le_of_lt (Database.keyEntries_le_of_shrinks hshrinks) (hlt c hc)
  · obtain ⟨-, rfl⟩ := pure_run h₆
    exact hdrop.frame fun _ _ _ _ _ _ _ hc => hc.elim

theorem removeColumnFromConstraint_frame (hb : db₀.RemovalBase sid s₀) {tid kid eid : Id}
    {st st' : Session} {u : Unit} (hst : st.db = db₀)
    (hrun : (removeColumnFromConstraint sid tid kid eid).run st = .ok u st') :
    db₀.RemovalFrame sid (some tid) none st'.db := by
  unfold removeColumnFromConstraint at hrun
  obtain ⟨k, st₁, h₁, h₂⟩ := run_bind_ok hrun
  obtain ⟨rfl, t, ht, hk⟩ := constraint_run h₁
  split at h₂
  · next entry hentry =>
    have hentry' : entry ∈ k.columns := List.mem_of_find?_eq_some hentry
    have heid : entry.id = eid := by simpa using List.find?_some hentry
    obtain ⟨st₂, hst₂, h₃⟩ := run_ite_guard
      (keeps_ensureKeyColumnRemovable sid tid entry.columnId : Keeps Eq _) h₂
    extract_lets columns tail at h₃
    dsimp only at h₃
    have h₀ : db₀.Removing sid (some tid) (fun _ _ => False) [] st₂.db := by
      rw [hst₂, hst]
      exact Removing.refl db₀ hb.schemaIds
    have ht₂ : st₂.db.FindsTable sid tid t := hst₂ ▸ ht
    have htail : ∀ st₃ : Session, db₀.Removing sid (some tid) (fun _ _ => False) [] st₃.db →
        (k.isPrimaryKey = true →
          st₃.db.keyEntries sid tid entry.columnId < db₀.keyEntries sid tid entry.columnId) →
        (tail ()).run st₃ = .ok u st' → db₀.RemovalFrame sid (some tid) none st'.db := by
      intro st₃ hrm hlt h₄
      simp only [tail] at h₄
      split at h₄
      · next hpk =>
        obtain ⟨n, st₄, h₅, h₆⟩ := run_bind_ok h₄
        obtain ⟨-, rfl⟩ := pure_run h₆
        obtain ⟨gone, hg⟩ := cascadeKeyRemoval_removing hb.schema hb.distinct cutStable_none hrm h₅
        have hshrinks := shrinks_cascadeKeyRemoval sid _ true st₃ n st₄ h₅
        refine hg.frame fun t₀ _ r _ _ m _ hc => ?_
        rcases hc with hc | ⟨hseed, hi⟩
        · exact hc.elim
        · obtain ⟨hpk', hkey⟩ := Prod.mk.inj (List.mem_singleton.1 hseed)
          refine .keyShrunk (hi.resolve_left Bool.noConfusion) ?_
          rw [hpk', hkey]
          exact lt_of_le_of_lt (Database.keyEntries_le_of_shrinks hshrinks) (hlt hpk)
      · obtain ⟨-, rfl⟩ := pure_run h₄
        exact hrm.frame fun _ _ _ _ _ _ _ hc => hc.elim
    have hc : entry.columnId ∈ k.columnIds := List.mem_map_of_mem hentry'
    split at h₃
    · obtain ⟨u₁, st₃, h₄, h₅⟩ := run_bind_ok h₃
      refine htail st₃ (modifyConstraints_removing cutStable_none
        (fun ks => List.filter_sublist.sublistForall₂) h₀ h₄) (fun hpk => ?_) h₅
      rw [keyEntries_modifyTable h₄ (fun _ h => h) ht₂, ← hst, Database.keyEntries_of_findsTable ht]
      exact Table.keyEntries_filter_lt hk hpk hc
    · obtain ⟨u₁, st₃, h₄, h₅⟩ := run_bind_ok h₃
      obtain ⟨t', st₄, h₆, h₇⟩ := run_bind_ok h₅
      obtain ⟨rfl, -⟩ := table_run h₆
      obtain ⟨u₂, st₅, h₈, h₉⟩ := run_bind_ok h₇
      have hst₅ := keeps_check _ _ _ _ h₈
      have hnarrow : ∀ x, t.constraints.find? (·.id = kid) = some x →
          Constraint.NarrowOf { x with columns := columns } x := by
        intro x hx
        rw [show t.constraints.find? (·.id = kid) = t.constraint? kid from rfl, hk,
          Option.some.injEq] at hx
        subst hx
        refine ⟨rfl, ?_⟩
        simp only [Constraint.columnIds, columns]
        rw [@map_renumber _ _ (fun c n => { c with seqNo := n }) ConstraintColumn.columnId
          (fun _ _ => rfl)]
        exact List.filter_sublist.map _
      have hrm := modifyTable_removing cutStable_none (fun _ t'' ht₀ ht'' _ => by
        obtain rfl := Database.FindsTable.unique ht'' ht₂
        exact ⟨@Table.trimmed_of_constraints _ t'' (t''.updateConstraint kid
            fun k => { k with columns := columns }) rfl rfl rfl
            (sublistForall₂_updateFirst _ _ _ hnarrow),
          fun hne => absurd (congrArg some (Database.FindsTable.id_eq ht₀)) hne⟩) h₀ h₄
      refine htail st₅ (hst₅ ▸ hrm) (fun hpk => ?_) h₉
      rw [← hst₅, keyEntries_modifyTable h₄ (fun _ h => h) ht₂, ← hst,
        Database.keyEntries_of_findsTable ht]
      refine Table.keyEntries_updateConstraint_lt hk hpk rfl ?_
      simp only [Constraint.columnIds, columns]
      rw [@map_renumber _ _ (fun c n => { c with seqNo := n }) ConstraintColumn.columnId
        (fun _ _ => rfl)]
      exact Constraint.count_filter_columnIds_lt hentry' heid rfl
  · cases h₂

theorem deleteRelationship_frame (hb : db₀.RemovalBase sid s₀) {rid : Id} {st st' : Session}
    {u : Unit} (hst : st.db = db₀) (hrun : (deleteRelationship sid rid).run st = .ok u st') :
    db₀.RemovalFrame sid none (some rid) st'.db := by
  have h₀ : db₀.Removing sid none (fun r _ => r.id = rid) [] st.db := by
    rw [hst]
    exact Removing.refl db₀ hb.schemaIds
  obtain ⟨gone, hg⟩ := deleteRelationship_removing hb.schema hb.distinct (cutStable_relationship rid)
    (fun t₀ ht₀ r₀ hr₀ hid => ⟨hb.mapped t₀ ht₀ r₀ hr₀, fun _ => hid⟩) h₀ hrun
  exact hg.frame fun _ _ r _ hne _ _ hc => absurd (congrArg some hc) hne

theorem removeColumnFromRelationship_frame (hb : db₀.RemovalBase sid s₀) {rid mid : Id}
    {st st' : Session} {u : Unit} (hst : st.db = db₀)
    (hrun : (removeColumnFromRelationship sid rid mid).run st = .ok u st') :
    db₀.RemovalFrame sid none (some rid) st'.db := by
  unfold removeColumnFromRelationship at hrun
  obtain ⟨⟨holder, r⟩, st₁, h₁, h₂⟩ := run_bind_ok hrun
  obtain ⟨hst₁, s, hs, hfound⟩ := reads_relationship sid rid _ _ _ h₁
  rw [hst, hb.schema, Option.some.injEq] at hs
  subst hs
  obtain ⟨hholder, hfind⟩ := Schema.relationship?_spec hfound
  have hr : r ∈ holder.relationships := List.mem_of_find?_eq_some hfind
  have hrid : r.id = rid := by simpa using List.find?_some hfind
  have hholder' : db₀.FindsTable sid holder.id holder :=
    ⟨s₀, hb.schema, Schema.table?_of_mem hb.distinct.tables hholder⟩
  dsimp -zeta only at h₂
  split at h₂
  · next m hm =>
    have hm' : m ∈ r.columns := List.mem_of_find?_eq_some hm
    have hmid : m.id = mid := by simpa using List.find?_some hm
    -- the guard reads the provider and may refuse; the rest runs on the snapshot it read
    extract_lets strip jp at h₂
    obtain ⟨st₂, hst₂, h₃⟩ : ∃ st₂ : Session, st₂.db = st₁.db ∧ (jp ()).run st₂ = .ok u st' := by
      split at h₂
      · obtain ⟨p, st₂, h₃, h₄⟩ := run_bind_ok h₂
        have hst₂ : st₁.db = st₂.db := (keeps_provider sid r.pkTableId : Keeps Eq _) _ _ _ h₃
        split at h₄
        · obtain ⟨_, _, hthrow, -⟩ := run_bind_ok h₄
          cases hthrow
        · exact ⟨st₂, hst₂.symm, h₄⟩
      · exact ⟨st₁, rfl, h₂⟩
    simp only [jp] at h₃
    obtain ⟨u₁, st₃, h₄, h₅⟩ := run_bind_ok h₃
    have h₀ : db₀.Removing sid none (fun r _ => r.id = rid) [] st₂.db := by
      rw [hst₂, hst₁, hst]
      exact Removing.refl db₀ hb.schemaIds
    have hnot : ¬(holder.editRelationship rid (·.withoutMapping mid)).Holds r m :=
      Table.not_holds_editRelationship hrid hmid
    have htrim : holder.Trimmed (fun r m => r.id = rid ∨ refCut [] r m)
        (holder.editRelationship rid (·.withoutMapping mid)) :=
      (Table.trimmed_editRelationship fun r => Relationship.filter_trimOf r _).mono
        fun _ _ => Or.inl
    have h₁' := modifyTable_removing (cutStable_relationship rid) (fun t₀ t ht₀ ht _ => by
      rw [ht₀.unique hholder', Database.FindsTable.unique ht (hst₂ ▸ hst₁ ▸ hst ▸ hholder')]
      exact ⟨htrim, fun _ hjust => hjust.step htrim.toShrinks (fun _ => ⟨r, hr, m, hm', hnot⟩)
        fun _ hc hc' => absurd hc hc'⟩) h₀ h₄
    have hlost : ∀ t, st₃.db.FindsTable sid holder.id t → ∀ c ∈ [m.fkColumnId],
        ∃ r₀ ∈ holder.relationships, ∃ m₀ ∈ r₀.columns, m₀.fkColumnId = c ∧ ¬t.Holds r₀ m₀ := by
      intro t ht c hc
      rw [(modifyTable_run h₄).1, hst₂, hst₁, hst] at ht
      have hid : ∀ x : Table, x.id = holder.id →
          (x.editRelationship rid (·.withoutMapping mid)).id = holder.id := fun _ h => h
      obtain ⟨_, hh, rfl⟩ := (Database.findsTable_updateTable hid).1 ht
      rw [Database.FindsTable.unique hh hholder', List.mem_singleton.1 hc]
      exact ⟨r, hr, m, hm', rfl, hnot⟩
    obtain ⟨gone, hg⟩ := releaseFkColumns_removing hb.schema hb.distinct
      (cutStable_relationship rid) hholder' hlost h₁' h₅
    exact hg.frame fun _ _ r _ hne _ _ hc => absurd (congrArg some hc) hne
  · cases h₂

/-- A successful `modifyRelationship` puts back, at the holder of the relationship it read, the
table found there with the relationship changed. -/
theorem modifyRelationship_run {rid : Id} {f : Relationship → Relationship} {st st' : Session}
    {u : Unit} (h : (modifyRelationship sid rid f).run st = .ok u st') :
    ∃ holder r, (∃ s, st.db.schema? sid = some s ∧ s.relationship? rid = some (holder, r)) ∧
      ∃ t, st.db.FindsTable sid holder.id t ∧
        st'.db = st.db.updateTable sid holder.id fun _ => t.changeRelationship rid f := by
  unfold modifyRelationship putTable at h
  obtain ⟨⟨holder, r⟩, st₁, h₁, h₂⟩ := run_bind_ok h
  obtain ⟨hst₁, hfound⟩ := reads_relationship sid rid _ _ _ h₁
  obtain ⟨t, st₂, h₃, h₄⟩ := run_bind_ok h₂
  obtain ⟨rfl, ht⟩ := table_run h₃
  dsimp only at h₄
  split at h₄
  · obtain ⟨_, _, hthrow, -⟩ := run_bind_ok h₄
    cases hthrow
  · refine ⟨holder, r, hfound, t, hst₁ ▸ ht, ?_⟩
    rw [(modifyTable_run h₄).1, hst₁]
    rfl

/-- Taking columns out of the target's primary keys loses no mapping. -/
theorem removeFromPrimaryKey_removing {cut : Relationship → KeyMapping → Prop}
    (hcut : CutStable cut) {gone : List (Id × Id)} {tid : Id} {cs : List Id} {st st' : Session}
    {u : Unit} (h : db₀.Removing sid (some tid) cut gone st.db)
    (hrun : (removeFromPrimaryKey sid tid cs).run st = .ok u st') :
    db₀.Removing sid (some tid) cut gone st'.db := by
  unfold removeFromPrimaryKey at hrun
  refine modifyTable_removing hcut (fun _ t ht₀ _ _ =>
    ⟨?_, fun hne => absurd (congrArg some (Database.FindsTable.id_eq ht₀)) hne⟩) h hrun
  refine Table.trimmed_of_constraints (Table.pruneRedundantKeys_head _)
    (Table.pruneRedundantKeys_columns _) (Table.pruneRedundantKeys_relationships _) ?_
  exact IsTrans.trans _ _ _ (Table.pruneRedundantKeys_constraints_sublist _).sublistForall₂
    (sublistForall₂_filter_map (fun k => by
      split
      exacts [Constraint.withoutColumns_narrowOf k _, Std.Refl.refl k]) _ _)

/-- After taking columns out of a table's primary keys, none of them has a place there. -/
theorem keyEntries_removeFromPrimaryKey {tid c : Id} {cs : List Id} (hc : c ∈ cs)
    {st st' : Session} {u : Unit} (hrun : (removeFromPrimaryKey sid tid cs).run st = .ok u st') :
    st'.db.keyEntries sid tid c = 0 := by
  unfold removeFromPrimaryKey at hrun
  obtain ⟨-, s, t, hs, ht⟩ := modifyTable_run hrun
  rw [keyEntries_modifyTable hrun (fun _ h => by simpa using h) ⟨s, hs, ht⟩, Table.keyEntries_eq]
  refine Nat.eq_zero_of_le_zero ?_
  dsimp only
  calc _ ≤ Constraint.keyCount c ((t.constraints.map fun k =>
          if k.kind = .primaryKey then k.withoutColumns cs else k).filter
            fun k => !(k.kind = .primaryKey && k.columns.isEmpty)) :=
        (Constraint.keyColumns_sublist
          (Table.pruneRedundantKeys_constraints_sublist _).sublistForall₂).count_le c
    _ ≤ _ := Constraint.keyCount_filter_le _ _
    _ = 0 := Constraint.keyCount_map_withoutColumns hc _

/-- A property of the snapshot that each step of a loop over a list keeps holds after the
loop. -/
theorem forM_invariant {α : Type} {f : α → EditM Unit} (I : Database → Prop) :
    ∀ {xs : List α} {st st' : Session} {u : Unit}, (xs.forM f).run st = .ok u st' → I st.db →
      (∀ a ∈ xs, ∀ st st' u, I st.db → (f a).run st = .ok u st' → I st'.db) → I st'.db
  | [], _, _, _, h, hI, _ => by
    obtain ⟨-, hst⟩ := pure_run h
    exact hst ▸ hI
  | x :: xs, st, st', u, h, hI, hf => by
    rw [List.forM_eq_forM, List.forM_cons] at h
    obtain ⟨u₁, st₁, h₁, h₂⟩ := run_bind_ok h
    exact forM_invariant I h₂ (hf x List.mem_cons_self st st₁ u₁ hI h₁)
      fun a ha => hf a (List.mem_cons_of_mem _ ha)

/-- Deleting a table deletes the relationships that reference it or that it holds, then drops
it. -/
theorem deleteTable_frame (hb : db₀.RemovalBase sid s₀) {tid : Id} {st st' : Session} {u : Unit}
    (hst : st.db = db₀) (hrun : (deleteTable sid tid).run st = .ok u st') :
    db₀.RemovalFrame sid (some tid) none st'.db := by
  unfold deleteTable at hrun
  obtain ⟨t, st₁, h₁, h₂⟩ := run_bind_ok hrun
  obtain ⟨hst₁, ht⟩ := table_run h₁
  obtain ⟨s, st₂, h₃, h₄⟩ := run_bind_ok h₂
  obtain ⟨hst₂, hs⟩ := schema_run h₃
  rw [hst₁, hst, hb.schema, Option.some.injEq] at hs
  subst hs
  have htable : db₀.FindsTable sid tid t := hst ▸ ht
  have htid : t.id = tid := htable.id_eq
  have hcut : CutStable fun r (_ : KeyMapping) => r.pkTableId = tid ∨ r.fkTableId = tid := by
    intro r r' m m' hhead _ h
    rw [Relationship.pkTableId_eq_of_head hhead, Relationship.fkTableId_eq_of_head hhead]
    exact h
  have hrel : ∀ rid ∈ s₀.attachedRelationships t, ∀ t₀ ∈ s₀.tables, ∀ r₀ ∈ t₀.relationships,
      r₀.id = rid → r₀.columns ≠ [] ∧ ∀ m : KeyMapping, r₀.pkTableId = tid ∨ r₀.fkTableId = tid := by
    intro rid hrid t₀ ht₀ r₀ hr₀ hid
    obtain ⟨r₁, hr₁, hid₁, hends⟩ :=
      Schema.exists_of_mem_attachedRelationships (hb.mem_tables htable) (hb.table_distinct htable) hrid
    have hr₀s : r₀ ∈ s₀.relationships := List.mem_flatMap.2 ⟨t₀, ht₀, hr₀⟩
    have hsame : r₀ = r₁ := List.inj_on_of_nodup_map hb.relationshipIds hr₀s hr₁ (hid.trans hid₁.symm)
    refine ⟨hb.mapped t₀ ht₀ r₀ hr₀, fun _ => ?_⟩
    rw [hsame, ← htid]
    exact hends
  obtain ⟨u₁, st₃, h₅, h₆⟩ := run_bind_ok h₄
  have h₀ : db₀.Removing sid (some tid) (fun r _ => r.pkTableId = tid ∨ r.fkTableId = tid) []
      st₂.db := by
    rw [hst₂, hst₁, hst]
    exact Removing.refl db₀ hb.schemaIds
  obtain ⟨gone, hg⟩ := forM_invariant (fun db => ∃ gone, db₀.Removing sid (some tid)
      (fun r _ => r.pkTableId = tid ∨ r.fkTableId = tid) gone db) h₅ ⟨[], h₀⟩
    fun rid hrid st₄ st₅ u₄ hpre h₇ => by
      obtain ⟨gone, hg⟩ := hpre
      obtain ⟨s', st₆, h₈, h₉⟩ := run_bind_ok h₇
      obtain ⟨hst₆, -⟩ := schema_run h₈
      rw [← hst₆] at hg
      split at h₉
      · exact deleteRelationship_removing hb.schema hb.distinct hcut (hrel rid hrid) hg h₉
      · obtain ⟨-, hst₅⟩ := pure_run h₉
        exact ⟨gone, hst₅ ▸ hg⟩
  rw [(modifySchema_run h₆).1]
  refine hg.frame_dropTable fun t₀ ht₀ r hr _ _ hc hne => hc.resolve_right fun hfk => hne ?_
  rw [← (hb.table_distinct ht₀).holder r hr, hfk]

/-- Taking key columns of the target out of its primary keys, and cascading their release, keeps
the frame: each mapping lost references one of them, which lost its places in the key. -/
theorem releaseKeys_frame {db₁ : Database} {s₁ : Schema} (hs₁ : db₁.schema? sid = some s₁)
    (hd₁ : s₁.Distinct) (hids : (db₁.schemas.map (·.id)).Nodup) {hid : Id} {holder : Table}
    (hholder : db₁.FindsTable sid hid holder) {cs : List Id}
    (hcs : ∀ c ∈ cs, holder.isKeyColumn c = true) {edited : Option Id}
    {st st₁ st' : Session} {u : Unit} {n : Nat} (hst : st.db = db₁)
    (h₁ : (removeFromPrimaryKey sid hid cs).run st = .ok u st₁)
    (h₂ : (cascadeKeyRemoval sid (cs.map (hid, ·)) true).run st₁ = .ok n st') :
    db₁.RemovalFrame sid (some hid) edited st'.db := by
  have h₀ : db₁.Removing sid (some hid) (fun _ _ => False) [] st.db := by
    rw [hst]
    exact Removing.refl db₁ hids
  obtain ⟨gone, hg⟩ := cascadeKeyRemoval_removing hs₁ hd₁ cutStable_none
    (removeFromPrimaryKey_removing cutStable_none h₀ h₁) h₂
  have hshrinks := shrinks_cascadeKeyRemoval sid _ true st₁ n st' h₂
  refine hg.frame fun _ _ r _ _ m _ hc => ?_
  rcases hc with hc | ⟨hseed, hi⟩
  · exact hc.elim
  · obtain ⟨c, hc, heq⟩ := List.mem_map.1 hseed
    obtain ⟨hpk, hkey⟩ := Prod.mk.inj heq
    refine .keyShrunk (hi.resolve_left Bool.noConfusion) ?_
    rw [← hpk, ← hkey, keyEntries_of_findsTable hholder]
    have hafter : st₁.db.keyEntries sid hid c = 0 := keyEntries_removeFromPrimaryKey hc h₁
    exact lt_of_le_of_lt ((keyEntries_le_of_shrinks hshrinks).trans hafter.le)
      (Table.keyEntries_pos_of_isKeyColumn (hcs c hc))

theorem changeRelationshipKind_frame (hb : db₀.RemovalBase sid s₀) {rid : Id}
    {st st' : Session} {u : Unit} (hst : st.db = db₀)
    (hrun : (changeRelationshipKind sid rid .nonIdentifying).run st = .ok u st') :
    db₀.RemovalFrame sid (((db₀.schema? sid).bind (·.relationship? rid)).map (·.1.id)) (some rid)
      st'.db := by
  unfold changeRelationshipKind at hrun
  obtain ⟨⟨holder, r⟩, st₁, h₁, h₂⟩ := run_bind_ok hrun
  obtain ⟨hst₁, s, hs, hfound⟩ := reads_relationship sid rid _ _ _ h₁
  rw [hst, hb.schema, Option.some.injEq] at hs
  subst hs
  have htarget : ((db₀.schema? sid).bind (·.relationship? rid)).map (·.1.id) = some holder.id := by
    rw [hb.schema, Option.bind_some, hfound, Option.map_some]
  rw [htarget]
  obtain ⟨hholder, -⟩ := Schema.relationship?_spec hfound
  have hholder' : db₀.FindsTable sid holder.id holder :=
    ⟨s₀, hb.schema, Schema.table?_of_mem hb.distinct.tables hholder⟩
  dsimp -zeta only at h₂
  split at h₂
  · obtain ⟨-, hst'⟩ := pure_run h₂
    rw [← hst', hst₁, hst]
    have h₀ : db₀.Removing sid (some holder.id) (fun _ _ => False) [] db₀ :=
      Removing.refl db₀ hb.schemaIds
    exact h₀.frame fun _ _ _ _ _ _ _ hc => hc.elim
  · extract_lets jp released at h₂
    set off : Relationship → Relationship := fun r => { r with kind := .nonIdentifying }
    obtain ⟨u₁, st₂, h₃, h₄⟩ := run_bind_ok h₂
    obtain ⟨u₂, st₃, h₅, h₆⟩ := run_bind_ok h₄
    obtain ⟨n, st₄, h₇, h₈⟩ := run_bind_ok h₆
    simp only [jp] at h₈
    have hst' : st₄.db = st'.db := (keeps_revalidateRelationship sid rid : Keeps Eq _) _ _ _ h₈
    obtain ⟨holder', r', ⟨s', hs', hfound'⟩, t, ht, hdb₂⟩ := modifyRelationship_run h₃
    rw [hst₁, hst, hb.schema, Option.some.injEq] at hs'
    subst hs'
    have hsame : (holder, r) = (holder', r') := Option.some.inj (hfound.symm.trans hfound')
    rw [← (Prod.mk.inj hsame).1, hst₁, hst] at ht hdb₂
    rw [ht.unique hholder'] at hdb₂
    -- the rest runs from the changed snapshot, where the released columns are still key columns
    obtain ⟨s₁, hs₁, hd₁⟩ := @Database.RemovalBase.distinct_changeRelationship db₀ sid s₀ hb holder
      hholder rid off (fun _ => rfl) fun _ => rfl
    have hholder₁ := (@Database.findsTable_updateTable db₀ sid holder.id
      (fun _ => holder.changeRelationship rid off) (fun _ _ => rfl) _).2 ⟨holder, hholder', rfl⟩
    have hcs : ∀ c ∈ released, holder.isKeyColumn c = true := by
      intro c hc
      have hkept := (List.mem_filter.1 hc).2
      rw [Bool.and_eq_true] at hkept
      exact hkept.1
    rw [← hst']
    refine @Database.RemovalFrame.of_changeRelationship db₀ st₄.db sid holder.id rid holder hholder'
      off ?_
    exact releaseKeys_frame hs₁ hd₁ (by rw [Database.schemaIds_updateTable]; exact hb.schemaIds)
      hholder₁ hcs hdb₂ h₅ h₇

end EditM

/-! ## Removals through the editor -/

/-- Every successful removal from an accepted snapshot keeps each mapping but those of the edited
relationship, or loses it with a column it references; other tables change only where they lost a
mapping, and other schemas not at all. -/
theorem Editor.apply_removal_frame {config : EditorConfig} {supply : IdSupply} {db db' : Database}
    {op : Operation} {sid : Id} {target edited : Option Id} (hv : db.validate = .ok ())
    (hop : op.removalScope db = some (sid, target, edited))
    (happ : (Editor.apply config supply db op).result = .ok db') :
    db.RemovalFrame sid target edited db' := by
  unfold Editor.apply at happ
  split at happ
  next st hrun =>
    cases happ
    have hbase : ∀ s, db.schema? sid = some s → db.RemovalBase sid s :=
      fun _ hs => Database.removalBase_of_validate hv hs
    cases op <;> simp only [Operation.removalScope, reduceCtorEq, Option.some.injEq,
      Prod.mk.injEq] at hop
    case deleteColumn s t c =>
      obtain ⟨rfl, rfl, rfl⟩ := hop
      have hrun' := hrun
      unfold Operation.run EditM.deleteColumn at hrun'
      obtain ⟨_, _, h₁, -⟩ := EditM.run_bind_ok hrun'
      obtain ⟨-, s, -, hs, -⟩ := EditM.column_run h₁
      exact EditM.deleteColumn_frame (hbase s hs) rfl hrun
    case deleteTable s t =>
      obtain ⟨rfl, rfl, rfl⟩ := hop
      have hrun' := hrun
      unfold Operation.run EditM.deleteTable at hrun'
      obtain ⟨_, _, h₁, -⟩ := EditM.run_bind_ok hrun'
      obtain ⟨-, s, hs, -⟩ := EditM.table_run h₁
      exact EditM.deleteTable_frame (hbase s hs) rfl hrun
    case deleteConstraint s t k =>
      obtain ⟨rfl, rfl, rfl⟩ := hop
      have hrun' := hrun
      unfold Operation.run EditM.deleteConstraint at hrun'
      obtain ⟨_, _, h₁, -⟩ := EditM.run_bind_ok hrun'
      obtain ⟨-, -, ⟨s, hs, -⟩, -⟩ := EditM.constraint_run h₁
      exact EditM.deleteConstraint_frame (hbase s hs) rfl hrun
    case removeColumnFromConstraint s t k e =>
      obtain ⟨rfl, rfl, rfl⟩ := hop
      have hrun' := hrun
      unfold Operation.run EditM.removeColumnFromConstraint at hrun'
      obtain ⟨_, _, h₁, -⟩ := EditM.run_bind_ok hrun'
      obtain ⟨-, -, ⟨s, hs, -⟩, -⟩ := EditM.constraint_run h₁
      exact EditM.removeColumnFromConstraint_frame (hbase s hs) rfl hrun
    case deleteRelationship s r =>
      obtain ⟨rfl, rfl, rfl⟩ := hop
      have hrun' := hrun
      unfold Operation.run EditM.deleteRelationship at hrun'
      obtain ⟨_, _, h₁, -⟩ := EditM.run_bind_ok hrun'
      obtain ⟨-, s, hs, -⟩ := EditM.reads_relationship _ _ _ _ _ h₁
      exact EditM.deleteRelationship_frame (hbase s hs) rfl hrun
    case removeColumnFromRelationship s r m =>
      obtain ⟨rfl, rfl, rfl⟩ := hop
      have hrun' := hrun
      unfold Operation.run EditM.removeColumnFromRelationship at hrun'
      obtain ⟨_, _, h₁, -⟩ := EditM.run_bind_ok hrun'
      obtain ⟨-, s, hs, -⟩ := EditM.reads_relationship _ _ _ _ _ h₁
      exact EditM.removeColumnFromRelationship_frame (hbase s hs) rfl hrun
    case changeRelationshipKind s r k =>
      cases k
      · simp only [reduceCtorEq] at hop
      obtain ⟨rfl, rfl, rfl⟩ := hop
      have hrun' := hrun
      unfold Operation.run EditM.changeRelationshipKind at hrun'
      obtain ⟨_, _, h₁, -⟩ := EditM.run_bind_ok hrun'
      obtain ⟨-, s, hs, -⟩ := EditM.reads_relationship _ _ _ _ _ h₁
      exact EditM.changeRelationshipKind_frame (hbase s hs) rfl hrun
  next => cases happ

/-- Tables `p`, keyed by `p1` and `p2`, and `h`, keyed by `h1`, whose non-identifying
relationship `r` maps `p1` onto `x` and `p2` onto `y`. -/
def twoMappingHolder : Database :=
  ⟨⟨"db"⟩, [⟨⟨"s"⟩, ⟨"db"⟩, "s", .mysql, none, none, [
    ⟨⟨"p"⟩, ⟨"s"⟩, "p", none,
      [⟨⟨"p1"⟩, ⟨"p"⟩, "p1", 1, some "INT", none, false, none, none, none⟩,
       ⟨⟨"p2"⟩, ⟨"p"⟩, "p2", 2, some "INT", none, false, none, none, none⟩], [],
      [⟨⟨"kp"⟩, ⟨"p"⟩, "pk_p", .primaryKey, none, none,
        [⟨⟨"kp1"⟩, ⟨"p1"⟩, 1⟩, ⟨⟨"kp2"⟩, ⟨"p2"⟩, 2⟩]⟩], []⟩,
    ⟨⟨"h"⟩, ⟨"s"⟩, "h", none,
      [⟨⟨"h1"⟩, ⟨"h"⟩, "h1", 1, some "INT", none, false, none, none, none⟩,
       ⟨⟨"x"⟩, ⟨"h"⟩, "x", 2, some "INT", none, false, none, none, none⟩,
       ⟨⟨"y"⟩, ⟨"h"⟩, "y", 3, some "INT", none, false, none, none, none⟩], [],
      [⟨⟨"kh"⟩, ⟨"h"⟩, "pk_h", .primaryKey, none, none, [⟨⟨"kh1"⟩, ⟨"h1"⟩, 1⟩]⟩],
      [⟨⟨"r"⟩, ⟨"h"⟩, ⟨"p"⟩, "r", .nonIdentifying, .oneToMany, .noAction, .noAction,
        [⟨⟨"m1"⟩, ⟨"x"⟩, ⟨"p1"⟩, 1⟩, ⟨⟨"m2"⟩, ⟨"y"⟩, ⟨"p2"⟩, 2⟩]⟩]⟩]⟩]⟩

set_option maxRecDepth 100000 in
theorem Editor.twoMappingHolder_deleteColumn_frame :
    twoMappingHolder.validate = .ok () ∧
      ∃ db', (Editor.apply {} { seed := 0 } twoMappingHolder
        (.deleteColumn ⟨"s"⟩ ⟨"h"⟩ ⟨"x"⟩)).result = .ok db' ∧
        twoMappingHolder.RemovalFrame ⟨"s"⟩ (some ⟨"h"⟩) none db' := by
  have hv : twoMappingHolder.validate = .ok () := by rfl
  obtain ⟨db', happ⟩ : ∃ db', (Editor.apply {} { seed := 0 } twoMappingHolder
      (.deleteColumn ⟨"s"⟩ ⟨"h"⟩ ⟨"x"⟩)).result = .ok db' := ⟨_, rfl⟩
  exact ⟨hv, db', happ, Editor.apply_removal_frame hv rfl happ⟩

/-- Tables `p`, whose key lists `p1` twice, `q`, keyed by `q1`, and `h`, keyed by `h1` and `f`,
with an identifying relationship `r1` mapping `p1` onto `f` and a non-identifying `r2` mapping
`q1` onto `f`. -/
def repeatedKeyEntry : Database :=
  ⟨⟨"db"⟩, [⟨⟨"s"⟩, ⟨"db"⟩, "s", .mysql, none, none, [
    ⟨⟨"p"⟩, ⟨"s"⟩, "p", none,
      [⟨⟨"p1"⟩, ⟨"p"⟩, "p1", 1, some "INT", none, false, none, none, none⟩], [],
      [⟨⟨"kp"⟩, ⟨"p"⟩, "pk_p", .primaryKey, none, none,
        [⟨⟨"kp1"⟩, ⟨"p1"⟩, 1⟩, ⟨⟨"kp2"⟩, ⟨"p1"⟩, 2⟩]⟩], []⟩,
    ⟨⟨"q"⟩, ⟨"s"⟩, "q", none,
      [⟨⟨"q1"⟩, ⟨"q"⟩, "q1", 1, some "INT", none, false, none, none, none⟩], [],
      [⟨⟨"kq"⟩, ⟨"q"⟩, "pk_q", .primaryKey, none, none, [⟨⟨"kq1"⟩, ⟨"q1"⟩, 1⟩]⟩], []⟩,
    ⟨⟨"h"⟩, ⟨"s"⟩, "h", none,
      [⟨⟨"h1"⟩, ⟨"h"⟩, "h1", 1, some "INT", none, false, none, none, none⟩,
       ⟨⟨"f"⟩, ⟨"h"⟩, "f", 2, some "INT", none, false, none, none, none⟩], [],
      [⟨⟨"kh"⟩, ⟨"h"⟩, "pk_h", .primaryKey, none, none,
        [⟨⟨"kh1"⟩, ⟨"h1"⟩, 1⟩, ⟨⟨"kh2"⟩, ⟨"f"⟩, 2⟩]⟩],
      [⟨⟨"r1"⟩, ⟨"h"⟩, ⟨"p"⟩, "r1", .identifying, .oneToMany, .noAction, .noAction,
        [⟨⟨"m1"⟩, ⟨"f"⟩, ⟨"p1"⟩, 1⟩]⟩,
       ⟨⟨"r2"⟩, ⟨"h"⟩, ⟨"q"⟩, "r2", .nonIdentifying, .oneToMany, .noAction, .noAction,
        [⟨⟨"m2"⟩, ⟨"f"⟩, ⟨"q1"⟩, 1⟩]⟩]⟩]⟩]⟩

set_option maxRecDepth 100000 in
/-- Removals drop mappings whose referenced column stays in the key: deleting the holder column
`x` drops the mapping of `r`, and removing one entry of `p1` in `p`'s key drops `r1`. -/
theorem Editor.removals_drop_mappings_of_surviving_keys :
    twoMappingHolder.validate = .ok () ∧
      (∃ db' t, (Editor.apply {} { seed := 0 } twoMappingHolder
          (.deleteColumn ⟨"s"⟩ ⟨"h"⟩ ⟨"x"⟩)).result = .ok db' ∧
        db'.HasColumn ⟨"s"⟩ ⟨"p"⟩ ⟨"p1"⟩ ∧ db'.FindsTable ⟨"s"⟩ ⟨"h"⟩ t ∧
        t.relationships.map (fun r => (r.id, r.kind, r.columns.map (·.pkColumnId))) =
          [(⟨"r"⟩, .nonIdentifying, [⟨"p2"⟩])]) ∧
      repeatedKeyEntry.validate = .ok () ∧
      (∃ db' p t, (Editor.apply {} { seed := 0 } repeatedKeyEntry
          (.removeColumnFromConstraint ⟨"s"⟩ ⟨"p"⟩ ⟨"kp"⟩ ⟨"kp2"⟩)).result = .ok db' ∧
        db'.FindsTable ⟨"s"⟩ ⟨"p"⟩ p ∧ p.isKeyColumn ⟨"p1"⟩ = true ∧
        db'.FindsTable ⟨"s"⟩ ⟨"h"⟩ t ∧ t.relationships.map (·.id) = [⟨"r2"⟩]) :=
  ⟨by rfl, ⟨_, _, rfl, ⟨_, ⟨_, rfl, rfl⟩, by decide⟩, ⟨_, rfl, rfl⟩, by decide⟩,
    by rfl, ⟨_, _, _, rfl, ⟨_, rfl, rfl⟩, by decide, ⟨_, rfl, rfl⟩, by decide⟩⟩

/-- Tables `p`, keyed by `p1`; `h`, keyed by `h1`, whose column `f` is mapped onto `p1` by the
non-identifying `r`; and `d`, keyed by `d1` and `dh`, identified by `h` through `rd`, which maps
`h1` onto `dh` and also the non-key `f` onto `df`. -/
def flipBelow : Database :=
  ⟨⟨"db"⟩, [⟨⟨"s"⟩, ⟨"db"⟩, "s", .mysql, none, none, [
    ⟨⟨"p"⟩, ⟨"s"⟩, "p", none,
      [⟨⟨"p1"⟩, ⟨"p"⟩, "p1", 1, some "INT", none, false, none, none, none⟩], [],
      [⟨⟨"kp"⟩, ⟨"p"⟩, "pk_p", .primaryKey, none, none, [⟨⟨"kp1"⟩, ⟨"p1"⟩, 1⟩]⟩], []⟩,
    ⟨⟨"h"⟩, ⟨"s"⟩, "h", none,
      [⟨⟨"h1"⟩, ⟨"h"⟩, "h1", 1, some "INT", none, false, none, none, none⟩,
       ⟨⟨"f"⟩, ⟨"h"⟩, "f", 2, some "INT", none, false, none, none, none⟩], [],
      [⟨⟨"kh"⟩, ⟨"h"⟩, "pk_h", .primaryKey, none, none, [⟨⟨"kh1"⟩, ⟨"h1"⟩, 1⟩]⟩],
      [⟨⟨"r"⟩, ⟨"h"⟩, ⟨"p"⟩, "r", .nonIdentifying, .oneToMany, .noAction, .noAction,
        [⟨⟨"m"⟩, ⟨"f"⟩, ⟨"p1"⟩, 1⟩]⟩]⟩,
    ⟨⟨"d"⟩, ⟨"s"⟩, "d", none,
      [⟨⟨"d1"⟩, ⟨"d"⟩, "d1", 1, some "INT", none, false, none, none, none⟩,
       ⟨⟨"dh"⟩, ⟨"d"⟩, "dh", 2, some "INT", none, false, none, none, none⟩,
       ⟨⟨"df"⟩, ⟨"d"⟩, "df", 3, some "INT", none, false, none, none, none⟩], [],
      [⟨⟨"kd"⟩, ⟨"d"⟩, "pk_d", .primaryKey, none, none, [⟨⟨"kd1"⟩, ⟨"d1"⟩, 1⟩, ⟨⟨"kd2"⟩, ⟨"dh"⟩, 2⟩]⟩],
      [⟨⟨"rd"⟩, ⟨"d"⟩, ⟨"h"⟩, "rd", .identifying, .oneToMany, .noAction, .noAction,
        [⟨⟨"md1"⟩, ⟨"dh"⟩, ⟨"h1"⟩, 1⟩, ⟨⟨"md2"⟩, ⟨"df"⟩, ⟨"f"⟩, 2⟩]⟩]⟩]⟩]⟩

set_option maxRecDepth 100000 in
/-- Making `r` identifying and then non-identifying again is accepted both times, but does not
give the snapshot back: the second flip removes `rd`'s mapping of `f` and the column `df`, which
were there before the first. -/
theorem Editor.kindFlip_drops_prior_mapping :
    flipBelow.validate = .ok () ∧
      ∃ db₁ db₂, (Editor.apply {} { seed := 0 } flipBelow
          (.changeRelationshipKind ⟨"s"⟩ ⟨"r"⟩ .identifying)).result = .ok db₁ ∧
        (Editor.apply {} { seed := 0 } db₁
          (.changeRelationshipKind ⟨"s"⟩ ⟨"r"⟩ .nonIdentifying)).result = .ok db₂ ∧
        db₂ ≠ flipBelow :=
  ⟨by rfl, _, _, rfl, rfl, by decide⟩

end SchemaDesign
