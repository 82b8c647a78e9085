import SchemaDesign.Proofs.Edit.HolderCompletion

/-!
# Creating an identifying relationship

An identifying relationship from the holder `C` to the provider `P` makes the key of `P` part of
the key of `C`. Creating one maps the draft's mappings, completes the mapping with every key
column of `P` the draft leaves out, puts the holder columns into the key of `C`, and propagates
those that are new key columns of `C` to the tables that depend on `C`.

What propagation did between two schemas is `Schema.KeysPropagated`: every other table gained
new columns (`gained`), which joined its key, and each of its relationships gained one mapping,
onto one of them, for each key column its provider gained that it is owed: it is identifying,
references another table, and did not map the column before (`Relationship.Propagated`,
`Table.Propagated`). The invariant of the propagation loop, once its queue is empty, gives it
(`Spreading.keysPropagated`).

Main statement: `Editor.apply_createRelationship_identifying`. On an accepted snapshot, a
successful creation of an identifying relationship leaves the holder identifying by it
(`Table.Identifies`), and its new key columns propagated.
-/

namespace SchemaDesign

/-! ## Propagation between two schemas -/

/-- The mappings `r'` has after those of `r`. -/
def Relationship.added (r r' : Relationship) : List KeyMapping := r'.columns.drop r.columns.length

/-- Relationship `r` grown into `r'` by key propagation: one mapping appended for each key column
`r` is owed, when it is identifying, references another table, and its provider gained it. -/
structure Relationship.Propagated (gained : Id → List Id) (tid : Id) (r r' : Relationship) :
    Prop where
  id : r'.id = r.id
  grown : r.columns <+: r'.columns
  once : ((r.added r').map (·.pkColumnId)).Nodup
  owed : ∀ k, k ∈ (r.added r').map (·.pkColumnId) ↔
    r.isIdentifying = true ∧ r.pkTableId ≠ tid ∧ r.mapsPkColumn k = false ∧ k ∈ gained r.pkTableId

/-- Table `t` grown into `t'` by key propagation: the columns `gained t.id`, distinct and new,
are appended and join the key, and each relationship grows by `Relationship.Propagated` onto them,
each column once. -/
structure Table.Propagated (gained : Id → List Id) (t t' : Table) : Prop where
  id : t'.id = t.id
  untouched : gained t.id = [] → t' = t
  columns : t'.columns.map (·.id) = t.columns.map (·.id) ++ gained t.id
  distinct : (gained t.id).Nodup
  fresh : ∀ c ∈ gained t.id, c ∉ t.columns.map (·.id)
  keys : ∀ k, t'.isKeyColumn k = true ↔ t.isKeyColumn k = true ∨ k ∈ gained t.id
  relationships : List.Forall₂ (Relationship.Propagated gained t.id) t.relationships t'.relationships
  holders : (List.zipWith (fun r r' => (r.added r').map (·.fkColumnId)) t.relationships
    t'.relationships).flatten.Perm (gained t.id)

/-- Key propagation from the key columns `seeds` of table `X`, from schema `s` to `s'`: for what
each table gained, `seeds` for `X`, every other table of `s` is found in `s'` grown by
`Table.Propagated`. -/
def Schema.KeysPropagated (s s' : Schema) (X : Id) (seeds : List Id) : Prop :=
  ∃ gained : Id → List Id, gained X = seeds ∧
    ∀ t ∈ s.tables, t.id ≠ X → ∃ t', s'.table? t.id = some t' ∧ t.Propagated gained t'

theorem Schema.KeysPropagated.of_tables {s₀ s s' : Schema} {X : Id} {seeds : List Id}
    (h : s₀.KeysPropagated s' X seeds) (hsub : ∀ t ∈ s.tables, t.id ≠ X → t ∈ s₀.tables) :
    s.KeysPropagated s' X seeds := by
  obtain ⟨gained, hX, hall⟩ := h
  exact ⟨gained, hX, fun t ht htX => hall t (hsub t ht htX) htX⟩

/-! ## Lists split by a key -/

/-- Splitting a list by a key, for every key in turn, gives its items back, when the keys are
distinct and hold every item's. -/
theorem perm_flatMap_filter_key {α κ : Type} [DecidableEq κ] (f : α → κ) {ks : List κ}
    (hnd : ks.Nodup) {l : List α} (hl : ∀ x ∈ l, f x ∈ ks) :
    (ks.flatMap fun k => l.filter (f · = k)).Perm l := by
  induction ks generalizing l with
  | nil =>
    cases l with
    | nil => exact .nil
    | cons x _ => exact absurd (hl x List.mem_cons_self) List.not_mem_nil
  | cons k ks ih =>
    rw [List.nodup_cons] at hnd
    -- the other keys split what is left once the items with key `k` are taken out
    have hrest : (ks.flatMap fun k' => l.filter (f · = k')) =
        ks.flatMap fun k' => (l.filter fun x => !decide (f x = k)).filter (f · = k') := by
      refine List.flatMap_congr fun k' hk' => ?_
      rw [List.filter_filter]
      refine List.filter_congr fun x _ => ?_
      by_cases hx : f x = k'
      · have hne : k' ≠ k := fun h => hnd.1 (h ▸ hk')
        simp [hx, hne]
      · simp [hx]
    rw [List.flatMap_cons, hrest]
    refine ((ih hnd.2 fun x hx => ?_).append_left _).trans (List.filter_append_perm _ l)
    obtain ⟨hxl, hxk⟩ := List.mem_filter.1 hx
    rcases List.mem_cons.1 (hl x hxl) with h | h
    · simp [h] at hxk
    · exact h

theorem flatten_zipWith_of_forall₂ {α β γ : Type} {R : α → β → Prop} {f : α → β → List γ}
    {g : α → List γ} (hfg : ∀ a b, R a b → f a b = g a) {xs : List α} {ys : List β}
    (h : List.Forall₂ R xs ys) : (List.zipWith f xs ys).flatten = xs.flatMap g := by
  induction h with
  | nil => rfl
  | cons hab _ ih => rw [List.zipWith_cons_cons, List.flatten_cons, ih, hfg _ _ hab, List.flatMap_cons]

theorem Sprout.inRelationship_eq_filter (ys : List Sprout) (tid rid : Id) :
    Sprout.inRelationship ys tid rid = (Sprout.inTable ys tid).filter (·.relationship = rid) := by
  simp only [Sprout.inRelationship, Sprout.inTable, List.filter_filter, Bool.decide_and, Bool.and_comm]

/-! ## The law from the invariant of propagation -/

theorem gainedKeys_of_ne {C : Id} {seeds : List Id} {ys : List Sprout} {X : Id} (hX : X ≠ C) :
    gainedKeys C seeds ys X = (Sprout.inTable ys X).map (·.column.id) := by
  rw [gainedKeys, if_neg hX, List.nil_append]

/-- A relationship grown by its sprouts, which map the key columns it is owed, each once, is
grown by propagation. -/
theorem Relationship.Sprouted.propagated {C : Id} {seeds : List Id} {ys : List Sprout} {t₀ : Table}
    {r r' : Relationship} (hr : Relationship.Sprouted (Sprout.inRelationship ys t₀.id r.id) r r')
    (hlaw : ((Sprout.inRelationship ys t₀.id r.id).map (·.key)).Nodup ∧
      ∀ k, k ∈ (Sprout.inRelationship ys t₀.id r.id).map (·.key) ↔ Owed C seeds ys t₀ r k) :
    r.Propagated (gainedKeys C seeds ys) t₀.id r' := by
  obtain ⟨ms, hcols, hpk, -⟩ := hr.columns
  have hadded : r.added r' = ms := by rw [Relationship.added, hcols, List.drop_left]
  refine ⟨hr.id, ⟨ms, hcols.symm⟩, ?_, fun k => ?_⟩
  · rw [hadded, hpk]
    exact hlaw.1
  · rw [hadded, hpk, hlaw.2 k]
    rfl

namespace Spreading

variable {sid : Id} {s₀ : Schema} {C : Id} {seeds : List Id} {ys : List Sprout}
  {visited : List (Id × Id)} {db : Database}

/-- Without seeds there is nothing to propagate: the queue is empty and nothing sprouts. -/
theorem quiet (hs : db.schema? sid = some s₀) : Spreading sid s₀ C [] [] [] [] C [] [] db where
  sprouted := Database.Sprouted.refl hs
  homes := by simp
  fresh := by simp
  reached := by simp
  queued := by simp
  round := ⟨.inl rfl, by simp⟩
  once := by simp
  visited := by simp
  law := by simp [Owed, gainedKeys]

/-- No sprout is in `C`: each is in a table depending on `C`, and no table depends on itself. -/
theorem not_start (hF : s₀.Founded) (h : Spreading sid s₀ C seeds ys [] visited C [] [] db) :
    ∀ y ∈ ys, y.table ≠ C :=
  fun y hy hyC => hF.layered.acyclic C (hyC ▸ h.reached y hy)

/-- The holder columns of a table's new mappings, relationship after relationship, are the
columns of its sprouts, each once: every sprout is in one of the table's relationships, whose ids
are distinct. -/
theorem holders_perm (hF : s₀.Founded) (h : Spreading sid s₀ C seeds ys [] visited C [] [] db)
    {t t' : Table} (ht : t ∈ s₀.tables) (hts : Table.Sprouted ys ys t t') :
    (List.zipWith (fun r r' => (r.added r').map (·.fkColumnId)) t.relationships
      t'.relationships).flatten.Perm ((Sprout.inTable ys t.id).map (·.column.id)) := by
  have hsplit : (List.zipWith (fun r r' => (r.added r').map (·.fkColumnId)) t.relationships
      t'.relationships).flatten =
      t.relationships.flatMap fun r => (Sprout.inRelationship ys t.id r.id).map (·.column.id) := by
    refine flatten_zipWith_of_forall₂ (fun r r' hr => ?_) hts.relationships
    obtain ⟨ms, hcols, -, hfk⟩ := hr.columns
    rw [Relationship.added, hcols, List.drop_left, hfk]
  have hhome : ∀ y ∈ Sprout.inTable ys t.id, y.relationship ∈ t.relationships.map (·.id) := by
    intro y hy
    obtain ⟨hy, hyt⟩ := List.mem_filter.1 hy
    obtain ⟨t₀, ht₀, ht₀y, hrel⟩ := h.homes y hy
    have htt : t₀ = t :=
      List.inj_on_of_nodup_map hF.layered.ids_nodup ht₀ ht (ht₀y.trans (by simpa using hyt))
    exact htt ▸ hrel
  have hperm := (perm_flatMap_filter_key Sprout.relationship (hF.relationshipIds t ht) hhome).map
    fun y : Sprout => y.column.id
  rw [hsplit]
  simpa [List.map_flatMap, List.flatMap_map, Sprout.inRelationship_eq_filter] using hperm

/-- A table other than `C` grown by its sprouts is grown by propagation. -/
theorem propagated (hF : s₀.Founded) (h : Spreading sid s₀ C seeds ys [] visited C [] [] db)
    {t t' : Table} (ht : t ∈ s₀.tables) (htC : t.id ≠ C) (hts : Table.Sprouted ys ys t t') :
    t.Propagated (gainedKeys C seeds ys) t' where
  id := hts.id
  untouched hnil := hts.untouched fun y hy hyt => by
    rw [gainedKeys_of_ne htC, List.map_eq_nil_iff, Sprout.inTable, List.filter_eq_nil_iff] at hnil
    exact hnil y hy (by simpa using hyt)
  columns := by rw [hts.columns, gainedKeys_of_ne htC]
  distinct := by
    rw [gainedKeys_of_ne htC]
    exact (h.fresh t ht).1
  fresh c hc := by
    rw [gainedKeys_of_ne htC] at hc
    obtain ⟨y, hy, rfl⟩ := List.mem_map.1 hc
    exact ((h.fresh t ht).2 y hy).1
  keys k := by rw [hts.keys, gainedKeys_of_ne htC]
  relationships := (Database.Sprouted.forall₂_mem hts.relationships).imp fun r _ hrr =>
    hrr.2.2.propagated (h.law_of_nil t ht r hrr.1)
  holders := by
    rw [gainedKeys_of_ne htC]
    exact holders_perm hF h ht hts

/-- **The law of key propagation.** Once the queue of propagation from the key columns `seeds` of
`C` is empty, the snapshot's schema is `s₀` with the keys propagated, and with `C` as it was. -/
theorem keysPropagated (hF : s₀.Founded) (h : Spreading sid s₀ C seeds ys [] visited C [] [] db) :
    ∃ s', db.schema? sid = some s' ∧ s₀.KeysPropagated s' C seeds ∧
      ∀ t, s₀.table? C = some t → s'.table? C = some t := by
  obtain ⟨s', hs', hT⟩ := h.sprouted
  have hfind : ∀ tid t, s₀.table? tid = some t →
      ∃ t', s'.table? tid = some t' ∧ Table.Sprouted ys ys t t' :=
    fun _ _ ht => forall₂_find?_left (fun _ _ hab => by rw [hab.id]) hT ht
  have hC : gainedKeys C seeds ys C = seeds := by
    rw [gainedKeys, if_pos rfl, Sprout.inTable_of_forall_ne (not_start hF h), List.map_nil,
      List.append_nil]
  refine ⟨s', hs', ⟨gainedKeys C seeds ys, hC, fun t ht htC => ?_⟩, fun t ht => ?_⟩
  · obtain ⟨t', ht', hts⟩ := hfind t.id t (Schema.table?_of_mem hF.layered.ids_nodup ht)
    exact ⟨t', ht', propagated hF h ht htC hts⟩
  · obtain ⟨t', ht', hts⟩ := hfind C t ht
    have htid : t.id = C := (Schema.mem_of_table? ht).2
    rw [ht', hts.untouched fun y hy => htid ▸ not_start hF h y hy]

end Spreading

/-! ## The schema propagation starts from -/

theorem Schema.relationshipIds_sublist {s : Schema} {t : Table} (ht : t ∈ s.tables) :
    (t.relationships.map (·.id)).Sublist (s.relationships.map (·.id)) := by
  rw [Schema.relationships, List.flatMap_def]
  exact (List.sublist_flatten_of_mem (List.mem_map_of_mem ht)).map _

namespace Database.Building

variable {db : Database} {sid : Id} {s : Schema} {d : RelationshipDraft} {C P : Table}

theorem table?_update (hB : db.Building sid s d C P) {T : Table} (hT : T.id = C.id) :
    ({ s with tables := updateFirst (·.id = d.fkTableId) (fun _ => T) s.tables } : Schema).table?
      d.fkTableId = some T := by
  have hC : s.tables.find? (·.id = d.fkTableId) = some C := hB.table?_holder
  simp only [Schema.table?]
  rw [find?_updateFirst (fun _ _ => by simpa using hT.trans hB.holderId), hC]
  rfl

theorem mem_update (hB : db.Building sid s d C P) {T t : Table} (ht : t ∈ s.tables)
    (htC : t.id ≠ C.id) : t ∈ updateFirst (·.id = d.fkTableId) (fun _ => T) s.tables := by
  rcases mem_updateFirst_of_mem ht with h | ⟨hfind, -⟩
  · exact h
  · exact absurd ((Schema.mem_of_table? hfind).2.trans hB.holderId.symm) htC

/-- The holder of an accepted snapshot changed into one completing the new relationship keeps
its schema founded: the holder gains the one link from `C` to `P`, which does not reach `C`; its
relationships name it as holder; and the new relationship's id is fresh. -/
theorem founded (hv : db.validate = .ok ()) (hB : db.Building sid s d C P)
    (hnr : ¬Relation.ReflTransGen s.DependsOn P.id C.id) {T : Table} {max : Nat} {R : Relationship}
    (hT : T.Completes d max C P R) :
    ({ s with tables := updateFirst (·.id = d.fkTableId) (fun _ => T) s.tables } : Schema).Founded := by
  have hsm : s ∈ db.schemas := List.mem_of_find?_eq_some hB.schema
  have hC : s.tables.find? (·.id = d.fkTableId) = some C := hB.table?_holder
  have hR := hT.ends
  have hrids : ∀ t ∈ s.tables, (t.relationships.map (·.id)).Nodup := fun t ht =>
    (Database.relationshipIds_nodup (Database.labelledIds_nodup_of_validate hv) hsm).sublist
      (Schema.relationshipIds_sublist ht)
  refine ⟨(Database.layered_of_validate hv s hsm).of_forall₂_link hnr
    (forall₂_updateFirst (fun t => Std.Refl.refl t) _ _ _ fun x hx => ?_), fun t ht r hr => ?_,
    fun t ht => ?_⟩
  · -- the holder gains the one link from `C` to `P`
    rw [hC, Option.some.injEq] at hx
    subst hx
    refine ⟨hT.id, hT.name, fun p hp => ?_⟩
    obtain ⟨r, hr, hi, rfl⟩ := Table.mem_providers.1 hp
    rw [hT.relationships] at hr
    rcases List.mem_append.1 hr with hr | hr
    · exact .inl (Table.mem_providers.2 ⟨r, hr, hi, rfl⟩)
    · rw [List.mem_singleton.1 hr]
      exact .inr ⟨rfl, hR.2.2.trans hB.providerId.symm⟩
  · rcases mem_updateFirst ht with ht | ⟨x, -, rfl⟩
    · exact Database.fkTableId_of_validate hv hsm ht hr
    · rw [hT.relationships] at hr
      rw [hT.id]
      rcases List.mem_append.1 hr with hr | hr
      · exact Database.fkTableId_of_validate hv hsm hB.holder hr
      · rw [List.mem_singleton.1 hr, hR.2.1, hB.holderId]
  · rcases mem_updateFirst ht with ht | ⟨x, -, rfl⟩
    · exact hrids t ht
    · rw [hT.relationships, List.map_append, List.map_singleton, hR.1]
      refine List.nodup_append.2 ⟨hrids C hB.holder, List.nodup_singleton _, fun a ha b hb => ?_⟩
      obtain ⟨r, hr, rfl⟩ := List.mem_map.1 ha
      rw [List.mem_singleton.1 hb]
      exact hB.fresh C hB.holder r hr

end Database.Building

/-! ## Creating an identifying relationship -/

/-- **Creating an identifying relationship.** On an accepted snapshot, a successful creation
leaves the holder identifying by the new relationship (`Table.Identifies`), and the new key
columns of the holder propagated to every identifying dependent (`Schema.KeysPropagated`). -/
theorem Editor.apply_createRelationship_identifying {config : EditorConfig} {supply : IdSupply}
    {db db' : Database} {sid : Id} {d : RelationshipDraft} (hv : db.validate = .ok ())
    (hkind : d.kind = .identifying)
    (happ : (Editor.apply config supply db (.createRelationship sid d)).result = .ok db') :
    ∃ s C P, db.schema? sid = some s ∧ s.table? d.fkTableId = some C ∧
      s.table? d.pkTableId = some P ∧ ∃ s' C' R, db'.schema? sid = some s' ∧
        s'.table? d.fkTableId = some C' ∧ C'.Identifies d config.naming.column.max C P R ∧
        s.KeysPropagated s' C.id (R.fkColumnIds.filter (!C.isKeyColumn ·)) := by
  unfold Editor.apply at happ
  split at happ
  next st hrun =>
    cases happ
    obtain ⟨s, C, P, hB, hnr, T, R, st₁, hT, hdb₁, hnil, hcons⟩ :=
      EditM.createRelationship_identifies hv hkind rfl hrun
    -- propagation starts from `s` with the holder identifying, a founded schema
    have hs₁ : st₁.db.schema? sid =
        some { s with tables := updateFirst (·.id = d.fkTableId) (fun _ => T) s.tables } := by
      rw [hdb₁]
      exact Database.schema?_updateTable hB.schema
    have hF := hB.founded hv hnr hT.completes
    obtain ⟨ys, visited, hsp⟩ : ∃ ys visited, Spreading sid
        { s with tables := updateFirst (·.id = d.fkTableId) (fun _ => T) s.tables } C.id
        (R.fkColumnIds.filter (!C.isKeyColumn ·)) ys [] visited C.id [] [] st.db := by
      by_cases hseeds : R.fkColumnIds.filter (!C.isKeyColumn ·) = []
      · rw [hnil hseeds, hseeds]
        exact ⟨[], [], Spreading.quiet hs₁⟩
      · obtain ⟨n, st₂, hn, hdb⟩ := hcons hseeds
        rw [hdb]
        rw [← hB.holderId] at hn
        exact propagateKeys_spreads hF hs₁ (hT.distinct.filter _) hn
    obtain ⟨s', hs', hprop, hC'⟩ := hsp.keysPropagated hF
    refine ⟨s, C, P, hB.schema, hB.table?_holder, hB.table?_provider, s', T, R, hs', ?_, hT,
      hprop.of_tables fun t ht htC => hB.mem_update ht htC⟩
    rw [← hB.holderId]
    refine hC' T ?_
    rw [hB.holderId]
    exact hB.table?_update hT.completes.id
  next => cases happ

/-- `customers`, keyed by `id`. -/
def customersTable : Table :=
  ⟨⟨"customers"⟩, ⟨"s"⟩, "customers", none,
    [⟨⟨"c1"⟩, ⟨"customers"⟩, "id", 1, some "INT", none, false, none, none, none⟩], [],
    [⟨⟨"kc"⟩, ⟨"customers"⟩, "pk_customers", .primaryKey, none, none, [⟨⟨"kc1"⟩, ⟨"c1"⟩, 1⟩]⟩],
    []⟩

/-- `customers`, `orders` and `lines`, with `lines` identified by `orders`. -/
def customerOrderLines : Database :=
  ⟨⟨"db"⟩, [⟨⟨"s"⟩, ⟨"db"⟩, "shop", .mysql, none, none,
    [customersTable, ordersTable, linesTable]⟩]⟩

/-- Makes `orders` identified by `customers`, mapping the key of `customers` onto a new column
`customer_id` of `orders`, from where it reaches the key of `lines`. -/
def ordersOnCustomers : RelationshipDraft :=
  ⟨⟨"rc"⟩, ⟨"orders"⟩, ⟨"customers"⟩, "fk_orders_customers", .identifying, .oneToMany, .noAction,
    .noAction, [⟨⟨"mc"⟩, ⟨"c1"⟩, ⟨"oc"⟩, some "customer_id"⟩]⟩

theorem Editor.ordersOnCustomers_identifying :
    customerOrderLines.validate = .ok () ∧ ordersOnCustomers.kind = .identifying ∧
      ∃ db', (Editor.apply {} { seed := 0 } customerOrderLines
          (.createRelationship ⟨"s"⟩ ordersOnCustomers)).result = .ok db' ∧
        ∃ s C P, customerOrderLines.schema? ⟨"s"⟩ = some s ∧
          s.table? ordersOnCustomers.fkTableId = some C ∧
          s.table? ordersOnCustomers.pkTableId = some P ∧ ∃ s' C' R, db'.schema? ⟨"s"⟩ = some s' ∧
            s'.table? ordersOnCustomers.fkTableId = some C' ∧
            C'.Identifies ordersOnCustomers ({} : EditorConfig).naming.column.max C P R ∧
            s.KeysPropagated s' C.id (R.fkColumnIds.filter (!C.isKeyColumn ·)) := by
  have hv : customerOrderLines.validate = .ok () := by rfl
  obtain ⟨db', happ⟩ : ∃ db', (Editor.apply {} { seed := 0 } customerOrderLines
      (.createRelationship ⟨"s"⟩ ordersOnCustomers)).result = .ok db' := by
    have hok : (Editor.apply {} { seed := 0 } customerOrderLines
        (.createRelationship ⟨"s"⟩ ordersOnCustomers)).result.toBool = true := by
      decide +kernel
    revert hok
    cases (Editor.apply {} { seed := 0 } customerOrderLines
        (.createRelationship ⟨"s"⟩ ordersOnCustomers)).result with
    | error e => exact fun h => absurd h Bool.false_ne_true
    | ok db' => exact fun _ => ⟨db', rfl⟩
  exact ⟨hv, rfl, db', happ, Editor.apply_createRelationship_identifying hv rfl happ⟩

end SchemaDesign
