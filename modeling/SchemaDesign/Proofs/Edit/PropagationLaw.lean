import SchemaDesign.Proofs.Edit.HolderColumns

/-!
# The propagation law

Key propagation (`propagateKeys`) starts from new key columns `seeds` of a table `C`. Round after
round it takes a provider off its queue with the key columns it gained, copies each of them into
every identifying relationship that references the provider and does not map it yet, puts the
holder columns made into the holder's key, and queues the holder with them.

What it adds is a list of sprouts (`Sprout`): a holder column with the mapping onto it. A snapshot
`Database.Sprouted sid s₀ ys zs db` is the schema `s₀` with the holder columns and mappings of
the sprouts `ys` appended and those of `zs` keyed, table by table (`Table.Sprouted`).

Main statement `Spreading.law_of_nil`: once the queue is empty, every table's key has gained
columns (`gainedKeys`: the seeds, and the holder columns it was given), and every relationship
maps, by one sprout each, exactly the columns its provider gained that it is owed (`Owed`): it is
identifying, not a self-reference, and did not map them before. It rests on an invariant of the
queue (`Spreading`): a column gained is still queued with its table, or owed columns of the table
are mapped; a column is queued at most once with its table; and every table reached depends on
`C`. On a layered schema propagation empties its queue (`propagateKeys_spreads`): the fuel
suffices because every provider a round queues depends on the provider of the round, so the
queue, weighed by the number of tables above each entry, gets lighter round by round
(`queueWeight`).
-/

namespace SchemaDesign

/-! ## Snapshots grown by sprouts -/

namespace Sprout

/-- The sprouts in table `tid`. -/
def inTable (ys : List Sprout) (tid : Id) : List Sprout := ys.filter (·.table = tid)

/-- The sprouts in relationship `rid` of table `tid`. -/
def inRelationship (ys : List Sprout) (tid rid : Id) : List Sprout :=
  ys.filter fun y => y.table = tid ∧ y.relationship = rid

@[simp]
theorem inTable_nil (tid : Id) : inTable [] tid = [] := rfl

@[simp]
theorem inRelationship_nil (tid rid : Id) : inRelationship [] tid rid = [] := rfl

theorem inTable_append (ys ys' : List Sprout) (tid : Id) :
    inTable (ys ++ ys') tid = inTable ys tid ++ inTable ys' tid :=
  List.filter_append ys ys'

theorem inRelationship_append (ys ys' : List Sprout) (tid rid : Id) :
    inRelationship (ys ++ ys') tid rid = inRelationship ys tid rid ++ inRelationship ys' tid rid :=
  List.filter_append ys ys'

/-- Sprouts of other tables are not in the table. -/
theorem inTable_of_forall_ne {ys : List Sprout} {tid : Id} (h : ∀ y ∈ ys, y.table ≠ tid) :
    inTable ys tid = [] :=
  List.filter_eq_nil_iff.2 fun y hy => by simpa using h y hy

theorem inRelationship_of_forall_ne {ys : List Sprout} {tid rid : Id}
    (h : ∀ y ∈ ys, y.table ≠ tid ∨ y.relationship ≠ rid) : inRelationship ys tid rid = [] :=
  List.filter_eq_nil_iff.2 fun y hy => by
    rcases h y hy with h | h <;> simp [h]

end Sprout

/-- `r` is `r₀` with mappings appended, one for each sprout of `ys`, in order: from the sprout's
key column onto its holder column. -/
structure Relationship.Sprouted (ys : List Sprout) (r₀ r : Relationship) : Prop where
  id : r.id = r₀.id
  kind : r.kind = r₀.kind
  pkTableId : r.pkTableId = r₀.pkTableId
  fkTableId : r.fkTableId = r₀.fkTableId
  columns : ∃ ms : List KeyMapping, r.columns = r₀.columns ++ ms ∧
    ms.map (·.pkColumnId) = ys.map (·.key) ∧ ms.map (·.fkColumnId) = ys.map (·.column.id)

/-- `t` is `t₀` with the holder columns and mappings of the sprouts `ys` added, and with the
holder columns of the sprouts `zs` in its key; a table that no sprout reaches is `t₀` itself. -/
structure Table.Sprouted (ys zs : List Sprout) (t₀ t : Table) : Prop where
  id : t.id = t₀.id
  untouched : (∀ y ∈ ys, y.table ≠ t₀.id) → t = t₀
  columns : t.columns.map (·.id) =
    t₀.columns.map (·.id) ++ (Sprout.inTable ys t₀.id).map (·.column.id)
  relationships : List.Forall₂ (fun r₀ r => Relationship.Sprouted (Sprout.inRelationship ys t₀.id r₀.id) r₀ r)
    t₀.relationships t.relationships
  keys : ∀ k, t.isKeyColumn k = true ↔
    t₀.isKeyColumn k = true ∨ k ∈ (Sprout.inTable zs t₀.id).map (·.column.id)

/-- Schema `sid` of `db` is `s₀` with the sprouts `ys` added and those of `zs` keyed. -/
def Database.Sprouted (sid : Id) (s₀ : Schema) (ys zs : List Sprout) (db : Database) : Prop :=
  ∃ s, db.schema? sid = some s ∧ List.Forall₂ (Table.Sprouted ys zs) s₀.tables s.tables

namespace Relationship.Sprouted

variable {ys : List Sprout} {r₀ r : Relationship}

theorem refl (r₀ : Relationship) : Relationship.Sprouted [] r₀ r₀ :=
  ⟨rfl, rfl, rfl, rfl, [], by simp, rfl, rfl⟩

theorem mapsPkColumn (h : Relationship.Sprouted ys r₀ r) (k : Id) :
    r.mapsPkColumn k = true ↔ r₀.mapsPkColumn k = true ∨ k ∈ ys.map (·.key) := by
  obtain ⟨ms, hcols, hpk, -⟩ := h.columns
  simp only [Relationship.mapsPkColumn, hcols, List.any_append, Bool.or_eq_true,
    List.any_eq_true, decide_eq_true_eq, ← hpk, List.mem_map]

/-- One more sprout: its mapping appended. -/
theorem appendMapping (h : Relationship.Sprouted ys r₀ r) {spec : FkSpec} {y : Sprout}
    (hkey : y.key = spec.pkColumnId) (hcol : y.column.id = spec.fkColumnId) :
    Relationship.Sprouted (ys ++ [y]) r₀ (r.appendMapping spec) := by
  obtain ⟨ms, hcols, hpk, hfk⟩ := h.columns
  refine ⟨h.id, h.kind, h.pkTableId, h.fkTableId, ms ++ [⟨spec.mappingId, spec.fkColumnId,
    spec.pkColumnId, r.columns.length + 1⟩], ?_, ?_, ?_⟩
  · simp [Relationship.appendMapping, hcols]
  · simp [hpk, hkey]
  · simp [hfk, hcol]

end Relationship.Sprouted

/-- `updateFirst` by a key that the items of one list carry without repeats changes the one item
with the key: related items stay related by `R'` when `f` changes the item with the key and when
the others stay. -/
theorem forall₂_updateFirst_key {α β κ : Type} [DecidableEq κ] {R R' : α → β → Prop}
    {ka : α → κ} {kb : β → κ} {k : κ} {f : β → β} (hk : ∀ a b, R a b → kb b = ka a)
    (hself : ∀ a b, R a b → ka a = k → R' a (f b)) (hother : ∀ a b, R a b → ka a ≠ k → R' a b) :
    ∀ {xs : List α} {ys : List β}, (xs.map ka).Nodup → List.Forall₂ R xs ys →
      List.Forall₂ R' xs (updateFirst (fun b => kb b = k) f ys) := by
  intro xs ys hnd hR
  induction hR with
  | nil => exact .nil
  | @cons a b xs ys hab hrest ih =>
    rw [List.map_cons, List.nodup_cons] at hnd
    unfold updateFirst
    by_cases hb : kb b = k
    · -- the rest carries other keys, and stays
      have ha : ka a = k := (hk a b hab).symm.trans hb
      rw [if_pos (by simpa using hb)]
      refine .cons (hself a b hab ha) (((List.forall₂_and_left _ _).2 ⟨fun _ h => h, hrest⟩).imp
        fun a' b' hab' => hother a' b' hab'.2 fun hka => hnd.1 ?_)
      rw [ha, ← hka]
      exact List.mem_map_of_mem hab'.1
    · rw [if_neg (by simpa using hb)]
      exact .cons (hother a b hab fun ha => hb ((hk a b hab).trans ha)) (ih hnd.2)

namespace Table.Sprouted

variable {ys zs : List Sprout} {t₀ t : Table}

theorem refl (t₀ : Table) : Table.Sprouted [] [] t₀ t₀ where
  id := rfl
  untouched _ := rfl
  columns := by simp
  relationships := List.forall₂_same.2 fun r _ => by simpa using Relationship.Sprouted.refl r
  keys k := by simp

/-- Sprouts of other tables leave a table's relation to its base as it is. -/
theorem append_other (h : Table.Sprouted ys zs t₀ t) {ys' zs' : List Sprout}
    (hys' : ∀ y ∈ ys', y.table ≠ t₀.id) (hzs' : ∀ y ∈ zs', y.table ≠ t₀.id) :
    Table.Sprouted (ys ++ ys') (zs ++ zs') t₀ t where
  id := h.id
  untouched hall := h.untouched fun y hy => hall y (List.mem_append_left _ hy)
  columns := by
    rw [h.columns, Sprout.inTable_append, Sprout.inTable_of_forall_ne hys', List.append_nil]
  relationships := h.relationships.imp fun {r₀ r} hr => by
    rwa [Sprout.inRelationship_append,
      Sprout.inRelationship_of_forall_ne fun y hy => .inl (hys' y hy), List.append_nil]
  keys k := by
    rw [h.keys, Sprout.inTable_append, Sprout.inTable_of_forall_ne hzs', List.append_nil]

/-- A holder column the table lacks, appended with its mapping: one more sprout. -/
theorem attachKey (h : Table.Sprouted ys zs t₀ t) (hrids : (t₀.relationships.map (·.id)).Nodup)
    {max : Nat} {name : String} {source : Column} {rid : Id} {spec : FkSpec}
    (hnone : t.column? spec.fkColumnId = none) {y : Sprout} (htable : y.table = t₀.id)
    (hrel : y.relationship = rid) (hkey : y.key = spec.pkColumnId)
    (hcol : y.column.id = spec.fkColumnId) :
    Table.Sprouted (ys ++ [y]) zs t₀ (t.attachKey max name source rid spec) where
  id := by rw [Table.attachKey_id, h.id]
  untouched hall := absurd htable (hall y (List.mem_append_right _ (List.mem_singleton_self y)))
  columns := by
    rw [Table.attachKey_columnIds, h.columns, hnone, Sprout.inTable_append]
    simp [Sprout.inTable, htable, hcol]
  relationships := by
    rw [Table.attachKey_relationships]
    refine forall₂_updateFirst_key (fun _ _ hr => hr.id) (fun r₀ r hr hid => ?_)
      (fun r₀ r hr hid => ?_) hrids h.relationships
    · rw [Sprout.inRelationship_append]
      have hy : Sprout.inRelationship [y] t₀.id r₀.id = [y] := by
        simp [Sprout.inRelationship, htable, hrel, hid]
      rw [hy]
      exact hr.appendMapping hkey hcol
    · have hy : Sprout.inRelationship [y] t₀.id r₀.id = [] :=
        Sprout.inRelationship_of_forall_ne fun y' hy' => .inr
          (by rw [List.mem_singleton.1 hy', hrel]; exact Ne.symm hid)
      rwa [Sprout.inRelationship_append, hy, List.append_nil]
  keys k := by rw [Table.attachKey_isKeyColumn, h.keys]

/-- A column its table does not mention is no column of the base table, no holder column of a
sprout in it, and no key column of the base table. -/
theorem not_mem_of_not_mentioned (h : Table.Sprouted ys zs t₀ t) {c : Id}
    (hc : c ∉ t.mentionedIds) :
    c ∉ t₀.columns.map (·.id) ∧ c ∉ (Sprout.inTable ys t₀.id).map (·.column.id) ∧
      t₀.isKeyColumn c = false := by
  have hcols : c ∉ t.columns.map (·.id) := fun hm => by
    obtain ⟨col, hcol, rfl⟩ := List.mem_map.1 hm
    exact hc (Table.mentions_column hcol)
  rw [h.columns, List.mem_append, not_or] at hcols
  refine ⟨hcols.1, hcols.2, ?_⟩
  cases hkey : t₀.isKeyColumn c with
  | false => rfl
  | true => exact absurd (Table.mentions_keyColumn ((h.keys c).2 (.inl hkey))) hc

/-- Key columns added: the holder columns of sprouts of the table join the keyed ones. -/
theorem addKeys (h : Table.Sprouted ys zs t₀ t) {ks : List Constraint} {new : List Sprout}
    (hnew : ∀ y ∈ new, y.table = t₀.id) (hreached : ∃ y ∈ ys, y.table = t₀.id)
    (hkeys : ∀ c, ({ t with constraints := ks } : Table).isKeyColumn c = true ↔
      t.isKeyColumn c = true ∨ c ∈ new.map (·.column.id)) :
    Table.Sprouted ys (zs ++ new) t₀ { t with constraints := ks } where
  id := h.id
  untouched hall := by
    obtain ⟨y, hy, hyt⟩ := hreached
    exact absurd hyt (hall y hy)
  columns := h.columns
  relationships := h.relationships
  keys k := by
    have hin : Sprout.inTable new t₀.id = new := List.filter_eq_self.2 fun y hy => by
      simpa using hnew y hy
    rw [hkeys, h.keys, Sprout.inTable_append, hin, List.map_append, List.mem_append, or_assoc]

end Table.Sprouted

namespace Database.Sprouted

variable {sid : Id} {s₀ : Schema} {ys zs : List Sprout} {db : Database}

theorem refl {db : Database} (hs : db.schema? sid = some s₀) : db.Sprouted sid s₀ [] [] :=
  ⟨s₀, hs, List.forall₂_same.2 fun t _ => Table.Sprouted.refl t⟩

theorem findsTable (h : db.Sprouted sid s₀ ys zs) {tid : Id} {t : Table}
    (ht : db.FindsTable sid tid t) : ∃ t₀, s₀.table? tid = some t₀ ∧ Table.Sprouted ys zs t₀ t := by
  obtain ⟨s, hs, hT⟩ := h
  obtain ⟨s', hs', ht'⟩ := ht
  rw [hs, Option.some.injEq] at hs'
  subst hs'
  exact forall₂_find? (fun t₀ t htt => by rw [htt.id]) hT ht'

theorem forall₂_mem {α β : Type} {R : α → β → Prop} :
    ∀ {xs : List α} {ys : List β}, List.Forall₂ R xs ys →
      List.Forall₂ (fun a b => a ∈ xs ∧ b ∈ ys ∧ R a b) xs ys
  | _, _, .nil => .nil
  | _, _, .cons hab hrest => .cons ⟨List.mem_cons_self, List.mem_cons_self, hab⟩
      ((forall₂_mem hrest).imp fun _ _ h =>
        ⟨List.mem_cons_of_mem _ h.1, List.mem_cons_of_mem _ h.2.1, h.2.2⟩)

/-- Changing the table with id `tid` in a way that grows it keeps the snapshot grown, when the
other tables are still related by what the sprouts added. -/
theorem updateTable (h : db.Sprouted sid s₀ ys zs) (hids : (s₀.tables.map (·.id)).Nodup)
    {tid : Id} {f : Table → Table} {ys' zs' : List Sprout}
    (hself : ∀ t₀ ∈ s₀.tables, ∀ t, t₀.id = tid → db.FindsTable sid tid t →
      Table.Sprouted ys zs t₀ t → Table.Sprouted ys' zs' t₀ (f t))
    (hother : ∀ t₀ ∈ s₀.tables, ∀ t, t₀.id ≠ tid → Table.Sprouted ys zs t₀ t →
      Table.Sprouted ys' zs' t₀ t) :
    (db.updateTable sid tid f).Sprouted sid s₀ ys' zs' := by
  obtain ⟨s, hs, hT⟩ := h
  -- the grown schema keeps the table ids, so the table changed is the one found
  have hids' : (s.tables.map (·.id)).Nodup := by
    rwa [forall₂_map_eq hT fun _ _ ht => ht.id]
  refine ⟨_, Database.schema?_updateTable hs, ?_⟩
  refine forall₂_updateFirst_key
    (R := fun t₀ t => t₀ ∈ s₀.tables ∧ t ∈ s.tables ∧ Table.Sprouted ys zs t₀ t)
    (fun _ _ hr => hr.2.2.id) (fun t₀ t hr hid => ?_)
    (fun t₀ t hr hid => hother t₀ hr.1 t hid hr.2.2) hids (forall₂_mem hT)
  refine hself t₀ hr.1 t hid ⟨s, hs, ?_⟩ hr.2.2
  rw [← hid, ← hr.2.2.id]
  exact Schema.table?_of_mem hids' hr.2.1

end Database.Sprouted

/-! ## Dependents -/

/-- What key propagation builds on in a schema: it is layered, each relationship names the table
holding it as holder, and the relationships of a table have distinct ids. -/
structure Schema.Founded (s : Schema) : Prop where
  layered : s.Layered
  holders : ∀ t ∈ s.tables, ∀ r ∈ t.relationships, r.fkTableId = t.id
  relationshipIds : ∀ t ∈ s.tables, (t.relationships.map (·.id)).Nodup

/-- The dependents a round of propagation from provider `X` visits: holder and id of every
identifying relationship that references `X` from another table. -/
def Schema.dependents (s : Schema) (X : Id) : List (Id × Id) :=
  ((s.referencing X).filter fun r => r.isIdentifying && r.fkTableId ≠ X).map
    fun r => (r.fkTableId, r.id)

namespace Schema

variable {s : Schema}

theorem mem_dependents (hF : s.Founded) {X : Id} {d : Id × Id} :
    d ∈ s.dependents X ↔ ∃ t ∈ s.tables, ∃ r ∈ t.relationships, r.pkTableId = X ∧
      r.isIdentifying = true ∧ t.id ≠ X ∧ d = (t.id, r.id) := by
  simp only [dependents, referencing, relationships, List.mem_map, List.mem_filter,
    List.mem_flatMap, Bool.and_eq_true, decide_eq_true_eq]
  constructor
  · rintro ⟨r, ⟨⟨⟨t, ht, hr⟩, hpk⟩, hid, hne⟩, rfl⟩
    rw [hF.holders t ht r hr] at hne ⊢
    exact ⟨t, ht, r, hr, hpk, hid, hne, rfl⟩
  · rintro ⟨t, ht, r, hr, hpk, hid, hne, rfl⟩
    exact ⟨r, ⟨⟨⟨t, ht, hr⟩, hpk⟩, hid, by rwa [hF.holders t ht r hr]⟩,
      by rw [hF.holders t ht r hr]⟩

/-- Each dependent is visited once: relationships of one table have distinct ids, and tables
distinct ids. -/
theorem dependents_nodup (hF : s.Founded) (X : Id) : (s.dependents X).Nodup := by
  have hall : (s.relationships.map fun r => (r.fkTableId, r.id)).Nodup := by
    rw [relationships, List.map_flatMap, List.nodup_flatMap]
    refine ⟨fun t ht => ?_, ?_⟩
    · refine List.Nodup.of_map Prod.snd ?_
      rw [List.map_map]
      exact hF.relationshipIds t ht
    · -- the pairs of two tables differ in their holders
      have hids : s.tables.Pairwise fun a b => a.id ≠ b.id :=
        List.pairwise_map.1 (List.nodup_iff_pairwise_ne.1 hF.layered.ids_nodup)
      refine hids.imp_of_mem fun {a b} ha hb hab x hxa hxb => hab ?_
      obtain ⟨r, hr, rfl⟩ := List.mem_map.1 hxa
      obtain ⟨r', hr', he⟩ := List.mem_map.1 hxb
      rw [← hF.holders a ha r hr, ← hF.holders b hb r' hr']
      exact (Prod.mk.inj he).1.symm
  rw [dependents, referencing]
  exact hall.sublist ((List.filter_sublist.trans List.filter_sublist).map _)

theorem Founded.eq_of_ids (hF : s.Founded) {t t' : Table} (ht : t ∈ s.tables)
    (ht' : t' ∈ s.tables) {r r' : Relationship} (hr : r ∈ t.relationships)
    (hr' : r' ∈ t'.relationships) (htid : t.id = t'.id) (hrid : r.id = r'.id) : t = t' ∧ r = r' := by
  have htt : t = t' := List.inj_on_of_nodup_map hF.layered.ids_nodup ht ht' htid
  subst htt
  exact ⟨rfl, List.inj_on_of_nodup_map (hF.relationshipIds t ht) hr hr' hrid⟩

theorem dependsOn_of_mem_dependents (hF : s.Founded) {X : Id} {d : Id × Id}
    (hd : d ∈ s.dependents X) : s.DependsOn d.1 X := by
  obtain ⟨t, ht, r, hr, hpk, hid, -, rfl⟩ := (mem_dependents hF).1 hd
  exact ⟨t, ht, rfl, Table.mem_providers.2 ⟨r, hr, hid, hpk⟩⟩

theorem length_dependents_le (X : Id) : (s.dependents X).length ≤ s.relationships.length := by
  rw [dependents, List.length_map, referencing]
  exact (List.filter_sublist.trans List.filter_sublist).length_le

/-- Relationships that keep their ids, kinds, holders and providers keep the dependents. -/
theorem dependents_eq_of_forall₂ {s₀ : Schema}
    (h : List.Forall₂ (fun r₀ r => r.id = r₀.id ∧ r.kind = r₀.kind ∧ r.pkTableId = r₀.pkTableId ∧
      r.fkTableId = r₀.fkTableId) s₀.relationships s.relationships) (X : Id) :
    s.dependents X = s₀.dependents X := by
  unfold dependents referencing
  have h₁ := forall₂_filter (p := fun r => decide (r.pkTableId = X))
    (q := fun r => decide (r.pkTableId = X)) (fun _ _ hr => by rw [hr.2.2.1]) h
  have h₂ := forall₂_filter (p := fun r => r.isIdentifying && decide (r.fkTableId ≠ X))
    (q := fun r => r.isIdentifying && decide (r.fkTableId ≠ X))
    (fun _ _ hr => by rw [Relationship.isIdentifying, Relationship.isIdentifying, hr.2.1, hr.2.2.2]) h₁
  exact forall₂_map_eq h₂ fun _ _ hr => by rw [hr.2.2.2, hr.1]

end Schema

theorem forall₂_flatMap {α β γ δ : Type} {R : α → β → Prop} {S : γ → δ → Prop} {f : α → List γ}
    {g : β → List δ} (hfg : ∀ a b, R a b → List.Forall₂ S (f a) (g b)) :
    ∀ {xs : List α} {ys : List β}, List.Forall₂ R xs ys → List.Forall₂ S (xs.flatMap f) (ys.flatMap g)
  | _, _, .nil => .nil
  | _, _, .cons hab hrest => by
    rw [List.flatMap_cons, List.flatMap_cons]
    exact List.rel_append (hfg _ _ hab) (forall₂_flatMap hfg hrest)

/-- Growing by sprouts keeps the dependents of every provider. -/
theorem Database.Sprouted.dependents {sid : Id} {s₀ : Schema} {ys zs : List Sprout} {db : Database}
    (h : db.Sprouted sid s₀ ys zs) {s : Schema} (hs : db.schema? sid = some s) (X : Id) :
    s.dependents X = s₀.dependents X := by
  obtain ⟨s', hs', hT⟩ := h
  rw [hs, Option.some.injEq] at hs'
  subst hs'
  refine Schema.dependents_eq_of_forall₂ (forall₂_flatMap (fun t₀ t ht => ?_) hT) X
  exact ht.relationships.imp fun _ _ hr => ⟨hr.id, hr.kind, hr.pkTableId, hr.fkTableId⟩

/-! ## The law and its invariant -/

section Law

variable (C : Id) (seeds : List Id)

/-- The key columns table `X` gained: the seeds when it is `C`, and its holder columns among the
sprouts. -/
def gainedKeys (ys : List Sprout) (X : Id) : List Id :=
  (if X = C then seeds else []) ++ (Sprout.inTable ys X).map (·.column.id)

/-- Relationship `r₀` of table `t₀` is owed key column `k`: it is identifying, does not reference
its own table, does not map `k`, and its provider gained `k`. -/
def Owed (ys : List Sprout) (t₀ : Table) (r₀ : Relationship) (k : Id) : Prop :=
  r₀.isIdentifying = true ∧ r₀.pkTableId ≠ t₀.id ∧ r₀.mapsPkColumn k = false ∧
    k ∈ gainedKeys C seeds ys r₀.pkTableId

theorem gainedKeys_append (ys new : List Sprout) (X : Id) :
    gainedKeys C seeds (ys ++ new) X =
      gainedKeys C seeds ys X ++ (Sprout.inTable new X).map (·.column.id) := by
  rw [gainedKeys, gainedKeys, Sprout.inTable_append, List.map_append, List.append_assoc]

end Law

/-- The key columns queued with table `X`. -/
def queuedKeys (work : List (Id × List Id)) (X : Id) : List Id :=
  (work.filter (·.1 = X)).flatMap (·.2)

@[simp]
theorem queuedKeys_nil (X : Id) : queuedKeys [] X = [] := rfl

theorem queuedKeys_cons (p : Id × List Id) (work : List (Id × List Id)) (X : Id) :
    queuedKeys (p :: work) X = (if p.1 = X then p.2 else []) ++ queuedKeys work X := by
  by_cases h : p.1 = X <;> simp [queuedKeys, h]

theorem queuedKeys_append (work work' : List (Id × List Id)) (X : Id) :
    queuedKeys (work ++ work') X = queuedKeys work X ++ queuedKeys work' X := by
  simp [queuedKeys, List.filter_append]

theorem queuedKeys_enqueue (work : List (Id × List Id)) (H : Id) (cs : List Id) (Y : Id) :
    queuedKeys (if cs.isEmpty then work else work ++ [(H, cs)]) Y =
      queuedKeys work Y ++ if H = Y then cs else [] := by
  cases cs with
  | nil => simp
  | cons c cs => simp [queuedKeys_append, queuedKeys_cons]

theorem mem_queuedKeys {work : List (Id × List Id)} {X k : Id} :
    k ∈ queuedKeys work X ↔ ∃ p ∈ work, p.1 = X ∧ k ∈ p.2 := by
  simp [queuedKeys, and_assoc]

/-- In the round of provider `X` with key columns `fks`, past the dependents `done`: key column
`k` has reached relationship `r₀` of `t₀` when no queued entry of its provider holds it and, if it
is one of the round's, the dependent is done. -/
def Delivered (work : List (Id × List Id)) (X : Id) (fks : List Id) (done : List (Id × Id))
    (t₀ : Table) (r₀ : Relationship) (k : Id) : Prop :=
  k ∉ queuedKeys work r₀.pkTableId ∧ (r₀.pkTableId = X → k ∈ fks → (t₀.id, r₀.id) ∈ done)

/-- The invariant of key propagation from the key columns `seeds` of `C`: the snapshot is `s₀`
grown by the sprouts `ys`, every queued column and visited pair is a key column its table gained,
and each relationship has mapped exactly the key columns owed to it and delivered so far. -/
structure Spreading (sid : Id) (s₀ : Schema) (C : Id) (seeds : List Id) (ys : List Sprout)
    (work : List (Id × List Id)) (visited : List (Id × Id)) (X : Id) (fks : List Id)
    (done : List (Id × Id)) (db : Database) : Prop where
  sprouted : db.Sprouted sid s₀ ys ys
  homes : ∀ y ∈ ys, ∃ t₀ ∈ s₀.tables, t₀.id = y.table ∧ y.relationship ∈ t₀.relationships.map (·.id)
  fresh : ∀ t₀ ∈ s₀.tables, ((Sprout.inTable ys t₀.id).map (·.column.id)).Nodup ∧
    ∀ y ∈ Sprout.inTable ys t₀.id,
      y.column.id ∉ t₀.columns.map (·.id) ∧ t₀.isKeyColumn y.column.id = false
  reached : ∀ y ∈ ys, Relation.TransGen s₀.DependsOn y.table C
  queued : ∀ p ∈ work, (p.1 = C ∨ Relation.TransGen s₀.DependsOn p.1 C) ∧
    ∀ k ∈ p.2, k ∈ gainedKeys C seeds ys p.1
  round : (X = C ∨ Relation.TransGen s₀.DependsOn X C) ∧ ∀ k ∈ fks, k ∈ gainedKeys C seeds ys X
  once : ∀ Y, (queuedKeys work Y ++ if Y = X then fks else []).Nodup
  visited : ∀ p ∈ visited, p.2 ∈ gainedKeys C seeds ys p.1
  law : ∀ t₀ ∈ s₀.tables, ∀ r₀ ∈ t₀.relationships,
    ((Sprout.inRelationship ys t₀.id r₀.id).map (·.key)).Nodup ∧
    ∀ k, k ∈ (Sprout.inRelationship ys t₀.id r₀.id).map (·.key) ↔
      Owed C seeds ys t₀ r₀ k ∧ Delivered work X fks done t₀ r₀ k

namespace Spreading

variable {sid : Id} {s₀ : Schema} {C : Id} {seeds : List Id} {ys : List Sprout}
  {work : List (Id × List Id)} {visited : List (Id × Id)} {X : Id} {fks : List Id}
  {done : List (Id × Id)} {db : Database}

/-- Before the first round: nothing sprouted, `C` queued with the seeds. -/
theorem start (hs : db.schema? sid = some s₀) (hseeds : seeds.Nodup) :
    Spreading sid s₀ C seeds [] [(C, seeds)] (seeds.map (C, ·)) C [] [] db where
  sprouted := Database.Sprouted.refl hs
  homes := by simp
  fresh := by simp
  reached := by simp
  queued := by simp [gainedKeys]
  round := by simp
  once Y := by
    by_cases hY : C = Y
    · simpa [queuedKeys_cons, hY] using hseeds
    · simp [queuedKeys_cons, hY]
  visited := by simp [gainedKeys]
  law t₀ _ r₀ _ := by
    refine ⟨by simp, fun k => ⟨fun hk => by simp at hk, fun ⟨hown, hdel⟩ => ?_⟩⟩
    -- a gained column is a seed, still queued with `C`
    obtain ⟨-, -, -, hk⟩ := hown
    by_cases hC : r₀.pkTableId = C
    · exact absurd (by simpa [queuedKeys_cons, hC, gainedKeys] using hk) hdel.1
    · simp [gainedKeys, hC] at hk

/-- A round starts with the first entry of the queue. -/
theorem pop {rest : List (Id × List Id)}
    (h : Spreading sid s₀ C seeds ys ((X, fks) :: rest) visited C [] [] db) :
    Spreading sid s₀ C seeds ys rest visited X fks [] db where
  sprouted := h.sprouted
  homes := h.homes
  fresh := h.fresh
  reached := h.reached
  queued p hp := h.queued p (List.mem_cons_of_mem _ hp)
  round := ⟨(h.queued _ List.mem_cons_self).1, (h.queued _ List.mem_cons_self).2⟩
  once Y := by
    have := h.once Y
    rw [queuedKeys_cons] at this
    by_cases hY : Y = X
    · subst hY
      simpa using List.nodup_append_comm.1 (by simpa using this)
    · simpa [Ne.symm hY, hY] using this
  visited := h.visited
  law t₀ ht₀ r₀ hr₀ := by
    refine ⟨(h.law t₀ ht₀ r₀ hr₀).1, fun k => ?_⟩
    rw [(h.law t₀ ht₀ r₀ hr₀).2 k]
    by_cases hX : r₀.pkTableId = X
    · simp [Delivered, queuedKeys_cons, hX, and_comm]
    · simp [Delivered, queuedKeys_cons, hX, Ne.symm hX]

/-- A round that has visited every dependent of its provider ends. -/
theorem finish (hF : s₀.Founded)
    (h : Spreading sid s₀ C seeds ys work visited X fks (s₀.dependents X) db) :
    Spreading sid s₀ C seeds ys work visited C [] [] db where
  sprouted := h.sprouted
  homes := h.homes
  fresh := h.fresh
  reached := h.reached
  queued := h.queued
  round := ⟨.inl rfl, by simp⟩
  once Y := by
    have := h.once Y
    split at this
    · simpa using this.sublist (List.sublist_append_left _ _)
    · simpa using this
  visited := h.visited
  law t₀ ht₀ r₀ hr₀ := by
    refine ⟨(h.law t₀ ht₀ r₀ hr₀).1, fun k => ?_⟩
    rw [(h.law t₀ ht₀ r₀ hr₀).2 k]
    -- an owed relationship onto the provider is one of its dependents
    constructor
    · rintro ⟨hown, hdel, -⟩
      exact ⟨hown, hdel, by simp⟩
    · rintro ⟨hown, hdel, -⟩
      refine ⟨hown, hdel, fun hX _ => (Schema.mem_dependents hF).2 ?_⟩
      exact ⟨t₀, ht₀, r₀, hr₀, hX, hown.1, fun h => hown.2.1 (hX.trans h.symm), rfl⟩

section Visit

variable (hF : s₀.Founded) (h : Spreading sid s₀ C seeds ys work visited X fks done db)
  {t₀ : Table} (ht₀ : t₀ ∈ s₀.tables) {r₀ : Relationship} (hr₀ : r₀ ∈ t₀.relationships)
  (hpk : r₀.pkTableId = X) (hident : r₀.isIdentifying = true) (hne : t₀.id ≠ X)
  {new : List Sprout} (hnew : ∀ y ∈ new, y.table = t₀.id ∧ y.relationship = r₀.id)
  (hfresh : ∀ y ∈ new, y.column.id ∉ t₀.columns.map (·.id) ∧
    y.column.id ∉ (Sprout.inTable ys t₀.id).map (·.column.id) ∧ t₀.isKeyColumn y.column.id = false)

include h ht₀ hr₀ hpk hident in
theorem reached_dependent : Relation.TransGen s₀.DependsOn t₀.id C := by
  have hd : s₀.DependsOn t₀.id X := ⟨t₀, ht₀, rfl, Table.mem_providers.2 ⟨r₀, hr₀, hident, hpk⟩⟩
  rcases h.round.1 with rfl | hX
  · exact .single hd
  · exact .head hd hX

include hnew in
theorem gainedKeys_visit (Y : Id) :
    gainedKeys C seeds (ys ++ new) Y =
      gainedKeys C seeds ys Y ++ if t₀.id = Y then new.map (·.column.id) else [] := by
  rw [gainedKeys_append]
  by_cases hY : t₀.id = Y
  · subst hY
    rw [if_pos rfl, Sprout.inTable, List.filter_eq_self.2 fun y hy => by simpa using (hnew y hy).1]
  · rw [if_neg hY, Sprout.inTable_of_forall_ne fun y hy => (hnew y hy).1 ▸ hY, List.map_nil]

include hF h ht₀ hr₀ hpk hident hfresh in
theorem not_mem_gainedKeys_visit :
    ∀ c ∈ new.map (·.column.id), c ∉ gainedKeys C seeds ys t₀.id := by
  have hC : t₀.id ≠ C := fun hC =>
    hF.layered.acyclic C (hC ▸ reached_dependent h ht₀ hr₀ hpk hident)
  intro c hc
  obtain ⟨y, hy, rfl⟩ := List.mem_map.1 hc
  simpa [gainedKeys, hC] using (hfresh y hy).2.1

include h ht₀ hr₀ hpk hident hne hnew in
/-- The law after the visit, for the dependent itself: the round's key columns it did not map
are delivered now. -/
theorem law_visit_self (hnotdone : (t₀.id, r₀.id) ∉ done)
    (hkeys : new.map (·.key) = fks.filter fun k => !r₀.mapsPkColumn k) :
    ((Sprout.inRelationship (ys ++ new) t₀.id r₀.id).map (·.key)).Nodup ∧
    ∀ k, k ∈ (Sprout.inRelationship (ys ++ new) t₀.id r₀.id).map (·.key) ↔
      Owed C seeds (ys ++ new) t₀ r₀ k ∧
      Delivered (if (new.map (·.column.id)).isEmpty then work
        else work ++ [(t₀.id, new.map (·.column.id))]) X fks (done ++ [(t₀.id, r₀.id)]) t₀ r₀ k := by
  obtain ⟨hnd, hlaw⟩ := h.law t₀ ht₀ r₀ hr₀
  have hrel : Sprout.inRelationship new t₀.id r₀.id = new :=
    List.filter_eq_self.2 fun y hy => by simpa using hnew y hy
  have hfks : (queuedKeys work X ++ fks).Nodup := by simpa using h.once X
  rw [Sprout.inRelationship_append, hrel, List.map_append, hkeys]
  refine ⟨List.nodup_append.2 ⟨hnd, (List.nodup_append.1 hfks).2.1.filter _, ?_⟩, fun k => ?_⟩
  · -- a column mapped before is not one of the round's, since the dependent is not done
    rintro a ha b hb rfl
    exact hnotdone (((hlaw a).1 ha).2.2 hpk (List.mem_filter.1 hb).1)
  · have hqueue := queuedKeys_enqueue work t₀.id (new.map (·.column.id)) X
    rw [if_neg hne, List.append_nil] at hqueue
    simp only [Owed, Delivered, hpk, gainedKeys_visit hnew X, if_neg hne, List.append_nil, hqueue,
      List.mem_append, List.mem_filter, List.mem_singleton, Bool.not_eq_eq_eq_not, Bool.not_true]
    rw [hlaw k]
    simp only [Owed, Delivered, hpk]
    constructor
    · rintro (⟨hown, hdel⟩ | ⟨hk, hmaps⟩)
      · exact ⟨hown, hdel.1, fun _ _ => .inr trivial⟩
      · exact ⟨⟨hident, Ne.symm hne, hmaps, h.round.2 k hk⟩,
          fun hq => (List.nodup_append.1 hfks).2.2 k hq k hk rfl, fun _ _ => .inr trivial⟩
    · rintro ⟨hown, hq, -⟩
      by_cases hk : k ∈ fks
      · exact .inr ⟨hk, hown.2.2.1⟩
      · exact .inl ⟨hown, hq, fun _ hk' => absurd hk' hk⟩

include hF h ht₀ hr₀ hpk hident hnew hfresh in
/-- The law after the visit, for every other relationship: the new columns are queued, and owed
to no relationship before. -/
theorem law_visit_other {t : Table} (ht : t ∈ s₀.tables) {r : Relationship}
    (hr : r ∈ t.relationships) (hother : ¬(t.id = t₀.id ∧ r.id = r₀.id)) :
    ((Sprout.inRelationship (ys ++ new) t.id r.id).map (·.key)).Nodup ∧
    ∀ k, k ∈ (Sprout.inRelationship (ys ++ new) t.id r.id).map (·.key) ↔
      Owed C seeds (ys ++ new) t r k ∧
      Delivered (if (new.map (·.column.id)).isEmpty then work
        else work ++ [(t₀.id, new.map (·.column.id))]) X fks (done ++ [(t₀.id, r₀.id)]) t r k := by
  obtain ⟨hnd, hlaw⟩ := h.law t ht r hr
  have hrel : Sprout.inRelationship new t.id r.id = [] :=
    Sprout.inRelationship_of_forall_ne fun y hy => by
      rw [(hnew y hy).1, (hnew y hy).2]
      exact (not_and_or.1 hother).imp Ne.symm Ne.symm
  rw [Sprout.inRelationship_append, hrel, List.append_nil]
  refine ⟨hnd, fun k => ?_⟩
  have hdone : (t.id, r.id) ∈ done ++ [(t₀.id, r₀.id)] ↔ (t.id, r.id) ∈ done := by
    simp only [List.mem_append, List.mem_singleton, Prod.mk.injEq, or_iff_left hother]
  rw [hlaw k]
  simp only [Owed, Delivered, gainedKeys_visit hnew, queuedKeys_enqueue, List.mem_append, hdone]
  by_cases hk : k ∈ if t₀.id = r.pkTableId then new.map (·.column.id) else []
  · -- a new column: queued now, and gained by no table before
    have hY : t₀.id = r.pkTableId := by
      by_contra hY
      simp [hY] at hk
    rw [if_pos hY] at hk
    have hgained := not_mem_gainedKeys_visit hF h ht₀ hr₀ hpk hident hfresh k hk
    rw [hY] at hgained
    simp only [hY, if_pos, hk, hgained]
    simp
  · simp only [hk, or_false]

include hF h ht₀ hr₀ hpk hident hne hnew hfresh in
/-- A dependent `(t₀, r₀)` of the round visited: the sprouts `new` map, in order, the round's
key columns that `r₀` does not map onto new columns of `t₀`, which join its key; `t₀` is queued
with them. -/
theorem visit (hnotdone : (t₀.id, r₀.id) ∉ done)
    (hkeys : new.map (·.key) = fks.filter fun k => !r₀.mapsPkColumn k)
    (hcols : (new.map (·.column.id)).Nodup) {db' : Database}
    (hdb : db'.Sprouted sid s₀ (ys ++ new) (ys ++ new)) :
    Spreading sid s₀ C seeds (ys ++ new)
      (if (new.map (·.column.id)).isEmpty then work else work ++ [(t₀.id, new.map (·.column.id))])
      (visited ++ new.map fun y => (t₀.id, y.column.id)) X fks (done ++ [(t₀.id, r₀.id)]) db' := by
  have hreach := reached_dependent h ht₀ hr₀ hpk hident
  have hgained := not_mem_gainedKeys_visit hF h ht₀ hr₀ hpk hident hfresh
  have hgrow : ∀ Y, ∀ k ∈ gainedKeys C seeds ys Y, k ∈ gainedKeys C seeds (ys ++ new) Y :=
    fun Y k hk => by rw [gainedKeys_visit hnew]; exact List.mem_append_left _ hk
  have hnewgained : ∀ y ∈ new, y.column.id ∈ gainedKeys C seeds (ys ++ new) t₀.id :=
    fun y hy => by
      rw [gainedKeys_visit hnew, if_pos rfl]
      exact List.mem_append_right _ (List.mem_map_of_mem hy)
  refine ⟨hdb, ?homes, ?fresh, ?reached, ?queued, ?round, ?once, ?visited, ?law⟩
  case homes =>
    intro y hy
    rcases List.mem_append.1 hy with hy | hy
    · exact h.homes y hy
    · exact ⟨t₀, ht₀, (hnew y hy).1.symm, (hnew y hy).2 ▸ List.mem_map_of_mem hr₀⟩
  case fresh =>
    intro t ht
    rw [Sprout.inTable_append]
    by_cases htid : t.id = t₀.id
    · -- the dependent's table: its old holder columns and the new ones, all distinct
      have htt : t = t₀ := List.inj_on_of_nodup_map hF.layered.ids_nodup ht ht₀ htid
      subst htt
      have hin : Sprout.inTable new t.id = new :=
        List.filter_eq_self.2 fun y hy => by simpa using (hnew y hy).1
      rw [hin, List.map_append]
      refine ⟨List.nodup_append.2 ⟨(h.fresh t ht).1, hcols, ?_⟩, fun y hy => ?_⟩
      · rintro a ha b hb rfl
        obtain ⟨y, hy, rfl⟩ := List.mem_map.1 hb
        exact (hfresh y hy).2.1 ha
      · rcases List.mem_append.1 hy with hy | hy
        · exact (h.fresh t ht).2 y hy
        · exact ⟨(hfresh y hy).1, (hfresh y hy).2.2⟩
    · have hin : Sprout.inTable new t.id = [] :=
        Sprout.inTable_of_forall_ne fun y hy => (hnew y hy).1 ▸ Ne.symm htid
      rw [hin, List.append_nil]
      exact h.fresh t ht
  case reached =>
    intro y hy
    rcases List.mem_append.1 hy with hy | hy
    · exact h.reached y hy
    · exact (hnew y hy).1 ▸ hreach
  case queued =>
    intro p hp
    split at hp
    · exact ⟨(h.queued p hp).1, fun k hk => hgrow _ k ((h.queued p hp).2 k hk)⟩
    rcases List.mem_append.1 hp with hp | hp
    · exact ⟨(h.queued p hp).1, fun k hk => hgrow _ k ((h.queued p hp).2 k hk)⟩
    · rw [List.mem_singleton.1 hp]
      refine ⟨.inr hreach, fun k hk => ?_⟩
      obtain ⟨y, hy, rfl⟩ := List.mem_map.1 hk
      exact hnewgained y hy
  case round => exact ⟨h.round.1, fun k hk => hgrow X k (h.round.2 k hk)⟩
  case once =>
    intro Y
    rw [queuedKeys_enqueue]
    by_cases hY : t₀.id = Y
    · -- the new columns are queued with the dependent's table, where nothing held them
      subst hY
      have hq : (queuedKeys work t₀.id).Nodup := by simpa [hne] using h.once t₀.id
      rw [if_pos rfl, if_neg hne, List.append_nil]
      refine List.nodup_append.2 ⟨hq, hcols, fun a ha b hb hab => hgained b hb ?_⟩
      obtain ⟨p, hp, hp1, hap⟩ := mem_queuedKeys.1 ha
      exact hab ▸ hp1 ▸ (h.queued p hp).2 a hap
    · rw [if_neg hY, List.append_nil]
      exact h.once Y
  case visited =>
    intro p hp
    rcases List.mem_append.1 hp with hp | hp
    · exact hgrow _ _ (h.visited p hp)
    · obtain ⟨y, hy, rfl⟩ := List.mem_map.1 hp
      exact hnewgained y hy
  case law =>
    intro t ht r hr
    by_cases hsame : t.id = t₀.id ∧ r.id = r₀.id
    · obtain ⟨rfl, rfl⟩ := hF.eq_of_ids ht ht₀ hr hr₀ hsame.1 hsame.2
      exact law_visit_self h ht hr hpk hident hne hnew hnotdone hkeys
    · exact law_visit_other hF h ht₀ hr₀ hpk hident hnew hfresh ht hr hsame

end Visit

/-- With the queue empty, every relationship has mapped exactly the key columns owed to it. -/
theorem law_of_nil (h : Spreading sid s₀ C seeds ys [] visited C [] [] db) :
    ∀ t₀ ∈ s₀.tables, ∀ r₀ ∈ t₀.relationships,
      ((Sprout.inRelationship ys t₀.id r₀.id).map (·.key)).Nodup ∧
      ∀ k, k ∈ (Sprout.inRelationship ys t₀.id r₀.id).map (·.key) ↔ Owed C seeds ys t₀ r₀ k := by
  intro t₀ ht₀ r₀ hr₀
  refine ⟨(h.law t₀ ht₀ r₀ hr₀).1, fun k => ?_⟩
  rw [(h.law t₀ ht₀ r₀ hr₀).2 k]
  simp [Delivered]

end Spreading

end SchemaDesign
