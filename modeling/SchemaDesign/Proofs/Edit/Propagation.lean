import SchemaDesign.Proofs.Edit.Acyclic

/-!
# Key propagation reaches every identifying dependent

A column that joins a table's primary key is propagated: `propagateKeys` gives every
identifying relationship that references the table and does not map the column yet a mapping of
it onto a fresh holder column, puts that column into the holder's key, and carries the new holder
key columns on, round after round. A relationship that already maps the column is skipped, with
whatever holder column it maps it to.

The steps of propagation only add: columns, mappings and key columns. `Table.GrowsBy New`
relates a table to one grown so, each new mapping allowed by `New`; `Database.GrowsKeyed`
relates snapshots grown so where every new mapping goes through a key column of its holder.
Mapping a key column alone does not keep that, but a dependent visited as a whole does
(`propagateDependent_run`): the columns it maps onto are the ones it then puts into the holder's
key. So does every round, and the whole operation.

One relationship is followed through a run: once it maps a column it keeps mapping it
(`Database.MapsKey`), and each of its mappings of the column was there before or goes through a
key column of its holder (`Database.KeyMappingsCarried`).

Main statement: `Editor.apply_addColumnToConstraint_propagates`. After a column joins a primary
key, every identifying relationship onto the table maps it, and each of its mappings of the
column is one it had before or goes through a key column of its holder. The exception is real:
a relationship that mapped the column before through a column outside its holder's key keeps
that mapping and gets no other (`Editor.addToKey_keeps_unkeyed_mapping`).
-/

namespace SchemaDesign

/-- `r'` is `r` with mappings added. -/
structure Relationship.Extends (r r' : Relationship) : Prop where
  id : r'.id = r.id
  kind : r'.kind = r.kind
  pkTableId : r'.pkTableId = r.pkTableId
  fkTableId : r'.fkTableId = r.fkTableId
  columns : r.columns ⊆ r'.columns

/-- `t'` is `t` with columns, mappings or key columns added, where a mapping `m` new in the
relationship `i` of `t` is allowed by `New t.id i m`. -/
structure Table.GrowsBy (New : Id → Id → KeyMapping → Prop) (t t' : Table) : Prop where
  id : t'.id = t.id
  rels : List.Forall₂ (fun r r' => r.Extends r' ∧ ∀ m ∈ r'.columns, m ∉ r.columns → New t.id r.id m)
    t.relationships t'.relationships
  keys : ∀ c, t.isKeyColumn c → t'.isKeyColumn c

namespace Relationship

instance : IsPreorder Relationship Extends where
  refl _ := ⟨rfl, rfl, rfl, rfl, List.Subset.refl _⟩
  trans _ _ _ h₁ h₂ := ⟨h₂.id.trans h₁.id, h₂.kind.trans h₁.kind, h₂.pkTableId.trans h₁.pkTableId,
    h₂.fkTableId.trans h₁.fkTableId, List.Subset.trans h₁.columns h₂.columns⟩

end Relationship

namespace Table

variable {New New' : Id → Id → KeyMapping → Prop}

instance : IsPreorder Table (GrowsBy New) where
  refl t := ⟨rfl, List.forall₂_same.2 fun r _ => ⟨Std.Refl.refl r, fun _ hm hn => absurd hm hn⟩,
    fun _ h => h⟩
  trans t₁ t₂ t₃ h₁ h₂ := by
    have hrels := h₂.rels
    rw [h₁.id] at hrels
    refine ⟨h₂.id.trans h₁.id, forall₂_trans (fun r₁ r₂ r₃ a b => ⟨IsTrans.trans _ _ _ a.1 b.1,
      fun m hm₃ hm₁ => ?_⟩) h₁.rels hrels, fun c hc => h₂.keys c (h₁.keys c hc)⟩
    by_cases hm₂ : m ∈ r₂.columns
    · exact a.2 m hm₂ hm₁
    · have := b.2 m hm₃ hm₂
      rwa [a.1.id] at this

theorem GrowsBy.mono (hN : ∀ i j m, New i j m → New' i j m) {t t' : Table} (h : t.GrowsBy New t') :
    t.GrowsBy New' t' :=
  ⟨h.id, h.rels.imp fun _ _ hr => ⟨hr.1, fun m hm hn => hN _ _ _ (hr.2 m hm hn)⟩, h.keys⟩

theorem growsBy_of_rels_eq {t t' : Table} (hid : t'.id = t.id)
    (hrel : t'.relationships = t.relationships) (hkey : ∀ c, t.isKeyColumn c → t'.isKeyColumn c) :
    t.GrowsBy New t' := by
  refine ⟨hid, ?_, hkey⟩
  rw [hrel]
  exact List.forall₂_same.2 fun r _ => ⟨Std.Refl.refl r, fun _ hm hn => absurd hm hn⟩

theorem growsBy_updateConstraint {t : Table} {kid : Id} {f : Constraint → Constraint}
    (hf : ∀ k, (f k).kind = k.kind ∧ k.columns ⊆ (f k).columns) :
    t.GrowsBy New (t.updateConstraint kid f) :=
  growsBy_of_rels_eq rfl rfl fun _ =>
    isKeyColumn_of_forall₂ (forall₂_updateFirst (fun _ => ⟨rfl, List.Subset.refl _⟩) _ f _
      fun k _ => hf k)

/-! ### Relationships -/

theorem growsBy_updateFirst {t : Table} {p : Relationship → Bool} {f : Relationship → Relationship}
    (hf : ∀ r ∈ t.relationships, p r →
      r.Extends (f r) ∧ ∀ m ∈ (f r).columns, m ∉ r.columns → New t.id r.id m) :
    t.GrowsBy New { t with relationships := updateFirst p f t.relationships } := by
  refine ⟨rfl, forall₂_updateFirst (fun r => ⟨Std.Refl.refl r, fun _ hm hn => absurd hm hn⟩) p f _
    fun r hr => hf r (List.mem_of_find?_eq_some hr) (List.find?_some hr), fun _ h => h⟩

/-- A grown table finds, for each relationship it finds, the one it grew from. -/
theorem GrowsBy.relationship? {t t' : Table} (h : t.GrowsBy New t') {i : Id} {r' : Relationship}
    (hr' : t'.relationship? i = some r') :
    ∃ r, t.relationship? i = some r ∧ r.Extends r' ∧ ∀ m ∈ r'.columns, m ∉ r.columns → New t.id i m := by
  have hid : ∀ (r : Relationship) (r' : Relationship),
      r.Extends r' ∧ (∀ m ∈ r'.columns, m ∉ r.columns → New t.id r.id m) →
        decide (r'.id = i) = decide (r.id = i) := fun _ _ h => by rw [h.1.id]
  obtain ⟨r, hr, hext, hnew⟩ := forall₂_find? hid h.rels hr'
  have hri : r.id = i := by simpa using List.find?_some hr
  exact ⟨r, hr, hext, hri ▸ hnew⟩

theorem GrowsBy.relationship?_left {t t' : Table} (h : t.GrowsBy New t') {i : Id} {r : Relationship}
    (hr : t.relationship? i = some r) : ∃ r', t'.relationship? i = some r' ∧ r.Extends r' := by
  have hid : ∀ (r' : Relationship) (r : Relationship),
      r.Extends r' ∧ (∀ m ∈ r'.columns, m ∉ r.columns → New t.id r.id m) →
        decide (r.id = i) = decide (r'.id = i) := fun _ _ h => by rw [h.1.id]
  obtain ⟨r', hr', hext, -⟩ := forall₂_find? hid h.rels.flip hr
  exact ⟨r', hr', hext⟩

end Table

/-- The new mappings of a step that maps into the relationship `rid` of table `hid`, each onto a
holder column among `fks`. -/
def MapsInto (hid rid : Id) (fks : List Id) (tid i : Id) (m : KeyMapping) : Prop :=
  tid = hid ∧ i = rid ∧ m.fkColumnId ∈ fks

theorem MapsInto.mono {hid rid : Id} {fks fks' : List Id} (h : fks ⊆ fks') {tid i : Id}
    {m : KeyMapping} (hm : MapsInto hid rid fks tid i m) : MapsInto hid rid fks' tid i m :=
  ⟨hm.1, hm.2.1, h hm.2.2⟩

/-- Appending a mapping to the first relationship `rid` of the holder, each mapping allowed by
`New`. -/
theorem Table.growsBy_attach_of {New : Id → Id → KeyMapping → Prop} {t : Table} {hid rid : Id}
    (ht : t.id = hid) (f : Relationship → KeyMapping) (hnew : ∀ r, New hid rid (f r)) :
    t.GrowsBy New { t with
      relationships := updateFirst (·.id = rid) (fun r => { r with columns := r.columns ++ [f r] })
        t.relationships } := by
  refine growsBy_updateFirst fun r _ hr => ⟨⟨rfl, rfl, rfl, rfl, List.subset_append_left _ _⟩, ?_⟩
  intro m hm hn
  rcases List.mem_append.1 hm with hm | hm
  · exact absurd hm hn
  · rw [List.mem_singleton.1 hm, ht, show r.id = rid by simpa using hr]
    exact hnew r

/-- The relationship `rid` of table `hid` in schema `sid` maps the provider column `k`. -/
def Database.MapsKey (sid hid rid k : Id) (db : Database) : Prop :=
  ∀ t, db.FindsTable sid hid t → ∀ r, t.relationship? rid = some r → r.mapsPkColumn k

/-- Each mapping of the provider column `k` by the relationship `rid` of table `hid` in schema
`sid` is one of `old`, or goes through a key column of the holder. -/
def Database.KeyMappingsCarried (sid hid rid k : Id) (old : List KeyMapping) (db : Database) :
    Prop :=
  ∀ t, db.FindsTable sid hid t → ∀ r, t.relationship? rid = some r →
    ∀ m ∈ r.columns, m.pkColumnId = k → m ∈ old ∨ t.isKeyColumn m.fkColumnId

/-- `db'` grows from `db`, and every mapping added goes through a column of its holder's key in
schema `sid`. -/
def Database.GrowsKeyed (sid : Id) (db db' : Database) : Prop :=
  ∃ New : Id → Id → KeyMapping → Prop, db.Tablewise (Table.GrowsBy New) db' ∧
    ∀ hid rid m, New hid rid m → ∀ t', db'.FindsTable sid hid t' → t'.isKeyColumn m.fkColumnId

namespace Database

variable {New : Id → Id → KeyMapping → Prop} {db db' : Database} {sid hid rid k : Id}

theorem Tablewise.growsBy_lookup (h : db.Tablewise (Table.GrowsBy New) db') {t' : Table}
    (ht' : db'.FindsTable sid hid t') {r' : Relationship} (hr' : t'.relationship? rid = some r') :
    ∃ t r, db.FindsTable sid hid t ∧ t.GrowsBy New t' ∧ t.relationship? rid = some r ∧
      r.Extends r' ∧ ∀ m ∈ r'.columns, m ∉ r.columns → New hid rid m := by
  obtain ⟨t, ht, hg⟩ := Tablewise.findsTable (fun _ _ h => h.id) h ht'
  obtain ⟨r, hr, hext, hnew⟩ := hg.relationship? hr'
  exact ⟨t, r, ht, hg, hr, hext, ht.id_eq ▸ hnew⟩

/-- A relationship that references `p` has an extension that references `p` in a grown
snapshot. -/
theorem Tablewise.referencing (h : db.Tablewise (Table.GrowsBy New) db') {s : Schema}
    (hs : db.schema? sid = some s) {p : Id} {r : Relationship} (hr : r ∈ s.referencing p) :
    ∃ s' r', db'.schema? sid = some s' ∧ r' ∈ s'.referencing p ∧ r.Extends r' := by
  have hsid : ∀ s' s : Schema, s'.id = s.id ∧ List.Forall₂ (Table.GrowsBy New) s.tables s'.tables →
      decide (s.id = sid) = decide (s'.id = sid) := fun _ _ hs => by rw [hs.1]
  obtain ⟨s', hs', -, htables⟩ := forall₂_find? hsid h.2.flip hs
  simp only [Schema.referencing, Schema.relationships, List.mem_filter, List.mem_flatMap] at hr ⊢
  obtain ⟨⟨t, ht, hrt⟩, hp⟩ := hr
  obtain ⟨t', ht', hg⟩ := forall₂_exists_of_mem_right htables.flip ht
  obtain ⟨r', hr', hext, -⟩ := forall₂_exists_of_mem_right hg.rels.flip hrt
  exact ⟨s', r', hs', ⟨⟨t', ht', hr'⟩, by rw [hext.pkTableId]; exact hp⟩, hext⟩

theorem MapsKey.of_growsBy (hm : db.MapsKey sid hid rid k) (h : db.Tablewise (Table.GrowsBy New) db') :
    db'.MapsKey sid hid rid k := by
  intro t' ht' r' hr'
  obtain ⟨t, r, ht, -, hr, hext, -⟩ := h.growsBy_lookup ht' hr'
  have hmaps := hm t ht r hr
  simp only [Relationship.mapsPkColumn, List.any_eq_true] at hmaps ⊢
  obtain ⟨m, hm, hpk⟩ := hmaps
  exact ⟨m, hext.columns hm, hpk⟩

/-- Growing keeps the mappings of `k` carried, as long as every new mapping of the relationship
goes through a column that is then in the holder's key. -/
theorem KeyMappingsCarried.of_growsBy {old : List KeyMapping}
    (hI : db.KeyMappingsCarried sid hid rid k old) (h : db.Tablewise (Table.GrowsBy New) db')
    (hnew : ∀ t', db'.FindsTable sid hid t' → ∀ m, New hid rid m → t'.isKeyColumn m.fkColumnId) :
    db'.KeyMappingsCarried sid hid rid k old := by
  intro t' ht' r' hr' m hm hpk
  obtain ⟨t, r, ht, hg, hr, -, hnm⟩ := h.growsBy_lookup ht' hr'
  by_cases hmr : m ∈ r.columns
  · exact (hI t ht r hr m hmr hpk).imp_right (hg.keys _)
  · exact .inr (hnew t' ht' m (hnm m hm hmr))

theorem growsKeyed_of_tablewise (h : db.Tablewise (Table.GrowsBy fun _ _ _ => False) db') :
    db.GrowsKeyed sid db' :=
  ⟨_, h, fun _ _ _ hm => hm.elim⟩

instance : IsPreorder Database (GrowsKeyed sid) where
  refl db := growsKeyed_of_tablewise (Std.Refl.refl db)
  trans db₁ db₂ db₃ := by
    rintro ⟨New₁, hg₁, hk₁⟩ ⟨New₂, hg₂, hk₂⟩
    refine ⟨fun i j m => New₁ i j m ∨ New₂ i j m,
      IsTrans.trans _ _ _ (hg₁.mono fun _ _ h => h.mono fun _ _ _ => .inl)
        (hg₂.mono fun _ _ h => h.mono fun _ _ _ => .inr), ?_⟩
    rintro hid rid m (hm | hm) t₃ ht₃
    · -- added by the first growth: its column stays in the key through the second
      obtain ⟨t₂, ht₂, hg⟩ := hg₂.findsTable (fun _ _ h => h.id) ht₃
      exact hg.keys _ (hk₁ hid rid m hm t₂ ht₂)
    · exact hk₂ hid rid m hm t₃ ht₃

theorem MapsKey.of_growsKeyed (hm : db.MapsKey sid hid rid k) (h : db.GrowsKeyed sid db') :
    db'.MapsKey sid hid rid k := by
  obtain ⟨New, hg, -⟩ := h
  exact hm.of_growsBy hg

theorem KeyMappingsCarried.of_growsKeyed {old : List KeyMapping}
    (hI : db.KeyMappingsCarried sid hid rid k old) (h : db.GrowsKeyed sid db') :
    db'.KeyMappingsCarried sid hid rid k old := by
  obtain ⟨New, hg, hk⟩ := h
  exact hI.of_growsBy hg fun t' ht' m hm => hk hid rid m hm t' ht'

end Database

namespace EditM

/-! ### Mapping one key column -/

theorem freshSpec_returns (pk : Id) : Returns (·.pkColumnId = pk) (freshSpec pk) := by
  unfold freshSpec
  exact Returns.bind_right fun _ => Returns.bind_right fun _ => Returns.pure rfl

theorem attachForeignKey_returns (sid hid rid pid : Id) (spec : FkSpec) :
    Returns (· = spec.fkColumnId) (attachForeignKey sid hid rid pid spec) := by
  unfold attachForeignKey
  refine Returns.bind_right fun _ => ?_
  dsimp only
  split
  · refine Returns.bind_right fun _ => ?_
    split
    on_goal 1 =>
      refine Returns.bind_right fun _ => ?_
      split
      all_goals refine Returns.bind_right fun _ => Returns.bind_right fun _ =>
        Returns.bind_right fun _ => ?_
    -- every way past the holder column ends in the same mapping step
    all_goals
      refine Returns.bind_right fun _ => Returns.bind_right fun _ => ?_
      split
      · exact Returns.bind_right fun _ => Returns.bind_right fun _ => Returns.pure rfl
      · exact Returns.bind_right fun _ => Returns.pure rfl
  · exact Returns.throw _

theorem attachForeignKey_growsBy_of {New : Id → Id → KeyMapping → Prop} (sid hid rid pid : Id)
    (spec : FkSpec)
    (hnew : ∀ n, New hid rid ⟨spec.mappingId, spec.fkColumnId, spec.pkColumnId, n⟩) :
    Keeps (Database.Tablewise (Table.GrowsBy New)) (attachForeignKey sid hid rid pid spec) :=
  keeps_attachForeignKey_of
    (fun _ => keeps_modifyTable fun _ _ => Table.growsBy_of_rels_eq rfl rfl fun _ h => h)
    (keeps_modifyTable fun _ ht => Table.growsBy_attach_of ht _ fun _ => hnew _)

theorem attachForeignKey_growsBy (sid hid rid pid : Id) (spec : FkSpec) :
    Keeps (Database.Tablewise (Table.GrowsBy (MapsInto hid rid [spec.fkColumnId])))
      (attachForeignKey sid hid rid pid spec) :=
  attachForeignKey_growsBy_of sid hid rid pid spec fun _ => ⟨rfl, rfl, List.mem_singleton_self _⟩

/-- After mapping a provider column, the relationship `rid` of the holder maps it. -/
theorem attachForeignKey_ensures (sid hid rid pid : Id) (spec : FkSpec) :
    Ensures (Database.MapsKey sid hid rid spec.pkColumnId) (attachForeignKey sid hid rid pid spec) := by
  have hattach : Ensures (Database.MapsKey sid hid rid spec.pkColumnId)
      (modifyTable sid hid fun t =>
        { t with
          relationships := updateFirst (·.id = rid)
            (fun r => { r with columns := r.columns ++ [⟨spec.mappingId, spec.fkColumnId,
              spec.pkColumnId, r.columns.length + 1⟩] })
            t.relationships }) := by
    refine ensures_modifyTable (fun _ h => h) fun t _ r hr => ?_
    rw [Table.relationship?, find?_updateFirst (by simp), Option.map_eq_some_iff] at hr
    obtain ⟨r, -, rfl⟩ := hr
    simp [Relationship.mapsPkColumn]
  unfold attachForeignKey
  refine Ensures.bind_right fun _ => ?_
  dsimp only
  split
  · refine Ensures.bind_right fun _ => ?_
    split
    on_goal 1 =>
      refine Ensures.bind_right fun _ => ?_
      split
      all_goals refine Ensures.bind_right fun _ => Ensures.bind_right fun _ =>
        Ensures.bind_right fun _ => ?_
    all_goals
      refine Ensures.bind_right fun _ => Ensures.bind_right fun _ => ?_
      split
      · exact Ensures.bind_right fun _ => Ensures.bind_left hattach fun _ => Keeps.pure _
      · exact Ensures.bind_left hattach fun _ => Keeps.pure _
  · exact Ensures.throw _

/-- A key column of the provider copied into a dependent relationship: the relationship maps it
afterwards, and a mapping added goes onto a holder column the step gives back. -/
theorem propagateKey_run {sid pid hid rid key : Id} {added added' : List Id} {st st' : Session}
    (h : (propagateKey sid pid hid rid added key).run st = .ok added' st') :
    (added ⊆ added' ∧ st.db.Tablewise (Table.GrowsBy (MapsInto hid rid added')) st'.db) ∧
      st'.db.MapsKey sid hid rid key := by
  unfold propagateKey at h
  obtain ⟨holder, st₁, h₁, h₂⟩ := run_bind_ok h
  obtain ⟨hst₁, hholder⟩ := table_run h₁
  rw [hst₁] at h₂
  dsimp only at h₂
  split at h₂ <;> split at h₂
  next r hr hmapped =>
    obtain ⟨rfl, rfl⟩ := pure_run h₂
    refine ⟨⟨List.Subset.refl _, Std.Refl.refl _⟩, fun t ht r' hr' => ?_⟩
    rw [ht.unique hholder, hr, Option.some.injEq] at hr'
    exact hr' ▸ hmapped
  case h_2.isTrue => exact absurd ‹false = true› Bool.false_ne_true
  all_goals
    obtain ⟨spec, st₂, h₃, h₄⟩ := run_bind_ok h₂
    obtain ⟨fk, st₃, h₅, h₆⟩ := run_bind_ok h₄
    obtain ⟨rfl, rfl⟩ := pure_run h₆
    have hdb : st.db = st₂.db := (keeps_freshSpec key : Keeps Eq _) _ _ _ h₃
    have hpk : spec.pkColumnId = key := freshSpec_returns key _ _ _ h₃
    have hfk : fk = spec.fkColumnId := attachForeignKey_returns sid hid rid pid spec _ _ _ h₅
    refine ⟨⟨List.subset_append_left _ _, ?_⟩,
      hpk ▸ attachForeignKey_ensures sid hid rid pid spec _ _ _ h₅⟩
    rw [hdb]
    refine (attachForeignKey_growsBy sid hid rid pid spec _ _ _ h₅).mono fun _ _ hg =>
      hg.mono fun _ _ _ hm => hm.mono ?_
    rw [← hfk]
    exact List.cons_subset.2 ⟨List.mem_append_right _ (List.mem_singleton_self _), List.nil_subset _⟩

/-- Copying key columns into a dependent relationship: it maps each of them afterwards, and every
mapping added goes onto one of the holder columns given back. -/
theorem propagateInto_run {sid pid hid rid : Id} {keys added : List Id} {st st' : Session}
    (h : (propagateInto sid pid hid rid keys).run st = .ok added st') :
    st.db.Tablewise (Table.GrowsBy (MapsInto hid rid added)) st'.db ∧
      ∀ key ∈ keys, st'.db.MapsKey sid hid rid key := by
  unfold propagateInto at h
  obtain ⟨⟨-, hgrow⟩, hmaps⟩ := foldlM_run
    (fun acc acc' db db' => acc ⊆ acc' ∧ db.Tablewise (Table.GrowsBy (MapsInto hid rid acc')) db')
    (fun key _ db => db.MapsKey sid hid rid key)
    (fun _ _ => ⟨List.Subset.refl _, Std.Refl.refl _⟩)
    (fun _ _ _ _ _ _ h₁ h₂ => ⟨List.Subset.trans h₁.1 h₂.1, IsTrans.trans _ _ _
      (h₁.2.mono fun _ _ hg => hg.mono fun _ _ _ hm => hm.mono h₂.1) h₂.2⟩)
    (fun _ _ _ _ _ hm hΦ => hm.of_growsBy hΦ.2)
    (fun _ _ _ _ _ hrun => propagateKey_run hrun) keys [] st added st' h
  exact ⟨hgrow, hmaps⟩

/-! ### Rounds -/

/-- A dependent visited as a whole grows the snapshot with every new mapping keyed: the holder
columns it maps onto are the ones it puts into the holder's key. It maps each key column. -/
theorem propagateDependent_run {sid pid : Id} {keys : List Id}
    {acc acc' : List (Id × List Id) × List (Id × Id) × Nat} {dep : Id × Id} {st st' : Session}
    (h : (propagateDependent sid pid keys acc dep).run st = .ok acc' st') :
    st.db.GrowsKeyed sid st'.db ∧ ∀ key ∈ keys, st'.db.MapsKey sid dep.1 dep.2 key := by
  obtain ⟨hid, rid⟩ := dep
  obtain ⟨rest, visited, count⟩ := acc
  unfold propagateDependent at h
  dsimp only at h
  obtain ⟨added, st₁, h₁, h₂⟩ := run_bind_ok h
  obtain ⟨hgrow, hmaps⟩ := propagateInto_run h₁
  split at h₂
  next hnil =>
    -- nothing was created, so no mapping was added
    obtain ⟨rfl, rfl⟩ := pure_run h₂
    refine ⟨⟨MapsInto hid rid added, hgrow, ?_⟩, hmaps⟩
    rintro _ _ m ⟨-, -, hm⟩
    rw [List.isEmpty_iff.1 hnil] at hm
    exact absurd hm List.not_mem_nil
  next =>
    obtain ⟨_, st₂, h₃, h₄⟩ := run_bind_ok h₂
    obtain ⟨t, ks, ht, hdb, hkeys, hadded⟩ := addToPrimaryKey_run h₃
    obtain ⟨_, st₃, h₅, h₆⟩ := run_bind_ok h₄
    have hdb₃ : st'.db = st₂.db := by
      rw [← emit_run h₅]
      exact (congrArg Session.db (pure_run h₆).2).symm
    have hgrow₂ : st₁.db.Tablewise (Table.GrowsBy (MapsInto hid rid added)) st₂.db := by
      obtain ⟨s, hs, hts⟩ := ht
      rw [hdb]
      exact tablewise_updateTable hs hts (Table.growsBy_of_rels_eq rfl rfl hkeys)
    rw [hdb₃]
    refine ⟨⟨MapsInto hid rid added, IsTrans.trans _ _ _ hgrow hgrow₂, ?_⟩,
      fun key hk => (hmaps key hk).of_growsBy hgrow₂⟩
    rintro i _ m ⟨hi, -, hm⟩ t'' ht''
    have hput : ∀ t₀ : Table, t₀.id = hid → ({ t with constraints := ks } : Table).id = hid :=
      fun _ _ => ht.id_eq
    rw [hi, hdb, Database.findsTable_updateTable hput] at ht''
    obtain ⟨-, -, rfl⟩ := ht''
    exact hadded _ hm

theorem keeps_growsKeyed_propagateDependent (sid pid : Id) (keys : List Id)
    (acc : List (Id × List Id) × List (Id × Id) × Nat) (dep : Id × Id) :
    Keeps (Database.GrowsKeyed sid) (propagateDependent sid pid keys acc dep) :=
  fun _ _ _ h => (propagateDependent_run h).1

theorem keeps_growsKeyed_propagateLoop (sid : Id) : ∀ (fuel : Nat) (work : List (Id × List Id))
    (visited : List (Id × Id)) (count : Nat),
    Keeps (Database.GrowsKeyed sid) (propagateLoop sid fuel work visited count) :=
  keeps_propagateLoop_of_dependent (keeps_growsKeyed_propagateDependent sid)

/-- The first round reaches every identifying relationship that references the provider from
another table, and each maps every key column of the round from then on. -/
theorem propagateLoop_maps {sid p : Id} {keys : List Id} {fuel : Nat} {rest : List (Id × List Id)}
    {visited : List (Id × Id)} {count n : Nat} {st st' : Session}
    (h : (propagateLoop sid (fuel + 1) ((p, keys) :: rest) visited count).run st = .ok n st')
    {s : Schema} (hs : st.db.schema? sid = some s) {r : Relationship} (hr : r ∈ s.referencing p)
    (hident : r.isIdentifying) (hne : r.fkTableId ≠ p) :
    ∀ key ∈ keys, st'.db.MapsKey sid r.fkTableId r.id key := by
  rw [propagateLoop] at h
  obtain ⟨s₁, st₁, h₁, h₂⟩ := run_bind_ok h
  obtain ⟨rfl, hs₁⟩ := schema_run h₁
  rw [hs, Option.some.injEq] at hs₁
  subst hs₁
  dsimp only at h₂
  obtain ⟨acc, st₂, h₃, h₄⟩ := run_bind_ok h₂
  -- every dependent of the round maps the keys once visited, and later visits keep that
  obtain ⟨-, hround⟩ := foldlM_run (fun _ _ => Database.GrowsKeyed sid)
    (fun (dep : Id × Id) _ db => ∀ key ∈ keys, db.MapsKey sid dep.1 dep.2 key)
    (fun _ db => Std.Refl.refl db) (fun _ _ _ _ _ _ h₁ h₂ => IsTrans.trans _ _ _ h₁ h₂)
    (fun _ _ _ _ _ hm hg key hk => (hm key hk).of_growsKeyed hg)
    (fun _ _ _ _ _ hrun => propagateDependent_run hrun) _ _ _ _ _ h₃
  have hlater : st₂.db.GrowsKeyed sid st'.db :=
    keeps_growsKeyed_propagateLoop sid fuel _ _ _ _ _ _ h₄
  intro key hk
  refine (hround (r.fkTableId, r.id) ?_ key hk).of_growsKeyed hlater
  exact List.mem_map_of_mem (List.mem_filter.2 ⟨hr, by simp [hident, hne]⟩)

theorem keeps_growsKeyed_propagateKeys (sid p : Id) (keys : List Id) :
    Keeps (Database.GrowsKeyed sid) (propagateKeys sid p keys) :=
  keeps_propagateKeys_of_dependent (keeps_growsKeyed_propagateDependent sid) p keys

/-- Propagating key columns of `p` maps them into every identifying relationship that
references `p` from another table. -/
theorem propagateKeys_maps {sid p : Id} {keys : List Id} {n : Nat} {st st' : Session}
    (h : (propagateKeys sid p keys).run st = .ok n st') {s : Schema}
    (hs : st.db.schema? sid = some s) {r : Relationship} (hr : r ∈ s.referencing p)
    (hident : r.isIdentifying) (hne : r.fkTableId ≠ p) :
    ∀ key ∈ keys, st'.db.MapsKey sid r.fkTableId r.id key := by
  unfold propagateKeys at h
  obtain ⟨s₁, st₁, h₁, h₂⟩ := run_bind_ok h
  obtain ⟨rfl, -⟩ := schema_run h₁
  dsimp only at h₂
  obtain ⟨n₁, st₂, h₃, h₄⟩ := run_bind_ok h₂
  obtain ⟨fuel, hfuel⟩ : ∃ fuel, s₁.propagationFuel = fuel + 1 :=
    Nat.exists_eq_succ_of_ne_zero (by simp [Schema.propagationFuel])
  rw [hfuel] at h₃
  have hdb : st₂.db = st'.db := (Keeps.ite (fun _ => Keeps.bind (keeps_emit _) fun _ =>
    Keeps.pure _) fun _ => Keeps.pure _ : Keeps Eq _) _ _ _ h₄
  intro key hk
  rw [← hdb]
  exact propagateLoop_maps h₃ hs hr hident hne key hk

/-! ### Adding a column to a key -/

theorem keeps_growsBy_updateConstraint (sid tid kid : Id) {f : Constraint → Constraint}
    (hf : ∀ k, (f k).kind = k.kind ∧ k.columns ⊆ (f k).columns) :
    Keeps (Database.Tablewise (Table.GrowsBy fun _ _ _ => False))
      (modifyTable sid tid (Table.updateConstraint kid f)) :=
  keeps_modifyTable fun _ _ => Table.growsBy_updateConstraint hf

theorem keeps_growsKeyed_addColumnToConstraint (sid tid kid : Id) (d : ConstraintColumnDraft) :
    Keeps (Database.GrowsKeyed sid) (addColumnToConstraint sid tid kid d) := by
  refine keeps_addColumnToConstraint_of ?_ (keeps_growsKeyed_propagateKeys sid tid)
  refine (keeps_growsBy_updateConstraint _ _ _ ?_).mono fun _ _ => Database.growsKeyed_of_tablewise
  exact fun _ => ⟨rfl, List.subset_append_left _ _⟩

theorem constraint_run {sid tid kid : Id} {st st' : Session} {k : Constraint}
    (h : (constraint sid tid kid).run st = .ok k st') :
    st' = st ∧ ∃ t, st.db.FindsTable sid tid t ∧ t.constraint? kid = some k := by
  obtain ⟨t, st₁, h₁, h₂⟩ := run_bind_ok h
  obtain ⟨hst₁, ht⟩ := table_run h₁
  rw [hst₁] at h₂
  split at h₂
  next k' hk =>
    obtain ⟨rfl, rfl⟩ := pure_run h₂
    exact ⟨rfl, t, ht, hk⟩
  next => cases h₂

/-- What a successful `addColumnToConstraint` does to the snapshot: it grows the constraint it
reads, adding no mapping, and then, for a primary key, propagates the column. -/
theorem addColumnToConstraint_run {sid tid kid : Id} {d : ConstraintColumnDraft}
    {st st' : Session} {u : Unit} (h : (addColumnToConstraint sid tid kid d).run st = .ok u st') :
    ∃ k st₁, (∃ t, st.db.FindsTable sid tid t ∧ t.constraint? kid = some k) ∧
      st.db.Tablewise (Table.GrowsBy fun _ _ _ => False) st₁.db ∧
      (k.kind = .primaryKey → ∃ n, (propagateKeys sid tid [d.columnId]).run st₁ = .ok n st') := by
  unfold addColumnToConstraint at h
  obtain ⟨_, st₁, h₁, h₂⟩ := run_bind_ok h
  obtain ⟨hst₁, -⟩ := column_run h₁
  obtain ⟨_, st₂, h₃, h₄⟩ := run_bind_ok h₂
  obtain ⟨hst₂, -⟩ := ensureFreshId_run h₃
  obtain ⟨k, st₃, h₅, h₆⟩ := run_bind_ok h₄
  obtain ⟨hst₃, hk⟩ := constraint_run h₅
  obtain ⟨_, st₄, h₇, h₈⟩ := run_bind_ok h₆
  have hdb₄ : st₃.db = st₄.db :=
    (keeps_ensureNullabilityAllowed sid tid k.kind [d.columnId] : Keeps Eq _) _ _ _ h₇
  dsimp only at h₈
  split at h₈
  · obtain ⟨_, _, hthrow, -⟩ := run_bind_ok h₈
    cases hthrow
  split at h₈
  · obtain ⟨_, _, hthrow, -⟩ := run_bind_ok h₈
    cases hthrow
  obtain ⟨_, st₅, h₉, h₁₀⟩ := run_bind_ok h₈
  have hgrow := keeps_growsBy_updateConstraint sid tid kid
    (by exact fun _ => ⟨rfl, List.subset_append_left _ _⟩) _ _ _ h₉
  obtain ⟨_, st₆, h₁₁, h₁₂⟩ := run_bind_ok h₁₀
  obtain ⟨hst₆, -⟩ := table_run h₁₁
  obtain ⟨_, st₇, h₁₃, h₁₄⟩ := run_bind_ok h₁₂
  obtain ⟨hst₇, -⟩ := check_run h₁₃
  have hst₃' : st₃ = st := hst₃.trans (hst₂.trans hst₁)
  refine ⟨k, st₅, hst₁ ▸ hst₂ ▸ hk, ?_, fun hkind => ?_⟩
  · rw [← hst₃', hdb₄]
    exact hgrow
  · rw [if_pos hkind] at h₁₄
    obtain ⟨n, st₈, h₁₅, h₁₆⟩ := run_bind_ok h₁₄
    obtain ⟨-, rfl⟩ := pure_run h₁₆
    rw [hst₇, hst₆] at h₁₅
    exact ⟨n, h₁₅⟩

/-- Adding a column to a primary key maps it into every identifying relationship that references
the table from another table. -/
theorem addColumnToConstraint_maps {sid tid kid : Id} {d : ConstraintColumnDraft}
    {st st' : Session} {u : Unit} (h : (addColumnToConstraint sid tid kid d).run st = .ok u st')
    {t : Table} {k : Constraint} (ht : st.db.FindsTable sid tid t) (hk : t.constraint? kid = some k)
    (hkind : k.kind = .primaryKey) {s : Schema} (hs : st.db.schema? sid = some s)
    {r : Relationship} (hr : r ∈ s.referencing tid) (hident : r.isIdentifying)
    (hne : r.fkTableId ≠ tid) :
    st'.db.MapsKey sid r.fkTableId r.id d.columnId := by
  obtain ⟨k', st₁, ⟨t', ht', hk'⟩, hgrow, hprop⟩ := addColumnToConstraint_run h
  rw [ht'.unique ht, hk, Option.some.injEq] at hk'
  subst hk'
  obtain ⟨n, hrun⟩ := hprop hkind
  obtain ⟨s₁, r₁, hs₁, hr₁, hext⟩ := hgrow.referencing hs hr
  have hmaps := propagateKeys_maps hrun hs₁ hr₁ (by rw [Relationship.isIdentifying, hext.kind]; exact hident)
    (by rw [hext.fkTableId]; exact hne) d.columnId (List.mem_singleton_self _)
  rwa [hext.fkTableId, hext.id] at hmaps

end EditM

/-- After a column joins a primary key, every identifying relationship onto the table maps it,
and each of its mappings of the column is one it had before or goes through a key column of its
holder. -/
theorem Editor.apply_addColumnToConstraint_propagates {config : EditorConfig} {supply : IdSupply}
    {db db' : Database} {sid tid kid : Id} {d : ConstraintColumnDraft}
    (hv : db.validate = .ok ())
    (happ : (Editor.apply config supply db (.addColumnToConstraint sid tid kid d)).result = .ok db')
    {t : Table} {k : Constraint} (ht : db.FindsTable sid tid t) (hk : t.constraint? kid = some k)
    (hkind : k.kind = .primaryKey) {hid rid : Id} {holder : Table} {r : Relationship}
    (hholder : db.FindsTable sid hid holder) (hr : holder.relationship? rid = some r)
    (hident : r.isIdentifying) (hpk : r.pkTableId = tid) :
    ∃ holder' r', db'.FindsTable sid hid holder' ∧ holder'.relationship? rid = some r' ∧
      r'.mapsPkColumn d.columnId ∧
      ∀ m ∈ r'.columns, m.pkColumnId = d.columnId → m ∈ r.columns ∨ holder'.isKeyColumn m.fkColumnId := by
  unfold Editor.apply at happ
  split at happ
  next st hrun =>
    cases happ
    have hhid : holder.id = hid := hholder.id_eq
    obtain ⟨s, hs, hts⟩ := id hholder
    have hsm : s ∈ db.schemas := List.mem_of_find?_eq_some hs
    have hmem : holder ∈ s.tables := List.mem_of_find?_eq_some hts
    have hrmem : r ∈ holder.relationships := List.mem_of_find?_eq_some hr
    have hfk : r.fkTableId = hid := (Database.fkTableId_of_validate hv hsm hmem hrmem).trans hhid
    have hrid : r.id = rid := by simpa using List.find?_some hr
    have hne : hid ≠ tid := fun heq => (Database.layered_of_validate hv s hsm).acyclic tid
      (.single ⟨holder, hmem, hhid.trans heq, Table.mem_providers.2 ⟨r, hrmem, hident, hpk⟩⟩)
    have href : r ∈ s.referencing tid :=
      List.mem_filter.2 ⟨List.mem_flatMap.2 ⟨holder, hmem, hrmem⟩, decide_eq_true hpk⟩
    have hmaps := EditM.addColumnToConstraint_maps hrun ht hk hkind hs href hident (hfk ▸ hne)
    rw [hfk, hrid] at hmaps
    -- the run grows the snapshot with every new mapping keyed, so the mappings of `r` stay carried
    have hgrow := EditM.keeps_growsKeyed_addColumnToConstraint sid tid kid d _ _ _ hrun
    have hinit : db.KeyMappingsCarried sid hid rid d.columnId r.columns := by
      intro t₀ ht₀ r₀ hr₀ m hm _
      rw [ht₀.unique hholder, hr, Option.some.injEq] at hr₀
      exact .inl (hr₀ ▸ hm)
    have hcarried := hinit.of_growsKeyed hgrow
    obtain ⟨New, hg, -⟩ := hgrow
    obtain ⟨holder', hholder', hgh⟩ := hg.findsTable_left (fun _ _ h => h.id) hholder
    obtain ⟨r', hr', -⟩ := hgh.relationship?_left hr
    exact ⟨holder', r', hholder', hr', hmaps holder' hholder' r' hr',
      hcarried holder' hholder' r' hr'⟩
  next => cases happ

/-- The identifying relationship `r` from `h` to `p`, mapping `p1` onto `f1`, then `extra`. -/
def keyedOnParent (extra : List KeyMapping) : Relationship :=
  ⟨⟨"r"⟩, ⟨"h"⟩, ⟨"p"⟩, "r", .identifying, .oneToMany, .noAction, .noAction,
    ⟨⟨"rf1"⟩, ⟨"f1"⟩, ⟨"p1"⟩, 1⟩ :: extra⟩

/-- Tables `p`, with columns `p1` and `p2` and keyed by `p1`, and `h`, with columns `h1`, `f1` and
`f2`, keyed by `h1` and `f1` and holding `keyedOnParent extra`. -/
def keyedPair (extra : List KeyMapping) : Database :=
  ⟨⟨"db"⟩, [⟨⟨"s"⟩, ⟨"db"⟩, "s", .mysql, none, none, [
    ⟨⟨"p"⟩, ⟨"s"⟩, "p", none,
      [⟨⟨"p1"⟩, ⟨"p"⟩, "p1", 1, some "INT", none, false, none, none, none⟩,
       ⟨⟨"p2"⟩, ⟨"p"⟩, "p2", 2, some "INT", none, false, none, none, none⟩], [],
      [⟨⟨"kp"⟩, ⟨"p"⟩, "pk_p", .primaryKey, none, none, [⟨⟨"kpp1"⟩, ⟨"p1"⟩, 1⟩]⟩], []⟩,
    ⟨⟨"h"⟩, ⟨"s"⟩, "h", none,
      [⟨⟨"h1"⟩, ⟨"h"⟩, "h1", 1, some "INT", none, false, none, none, none⟩,
       ⟨⟨"f1"⟩, ⟨"h"⟩, "f1", 2, some "INT", none, false, none, none, none⟩,
       ⟨⟨"f2"⟩, ⟨"h"⟩, "f2", 3, some "INT", none, false, none, none, none⟩], [],
      [⟨⟨"kh"⟩, ⟨"h"⟩, "pk_h", .primaryKey, none, none,
        [⟨⟨"khh1"⟩, ⟨"h1"⟩, 1⟩, ⟨⟨"khf1"⟩, ⟨"f1"⟩, 2⟩]⟩],
      [keyedOnParent extra]⟩]⟩]⟩

/-- Adding `p2` to the key of `p`. -/
def addP2ToKey : Operation :=
  .addColumnToConstraint ⟨"s"⟩ ⟨"p"⟩ ⟨"kp"⟩ ⟨⟨"kpp2"⟩, ⟨"p2"⟩⟩

set_option maxRecDepth 100000 in
theorem Editor.keyedPair_propagates :
    (keyedPair []).validate = .ok () ∧
      ∃ db', (Editor.apply {} { seed := 0 } (keyedPair []) addP2ToKey).result = .ok db' ∧
        ∃ holder' r', db'.FindsTable ⟨"s"⟩ ⟨"h"⟩ holder' ∧ holder'.relationship? ⟨"r"⟩ = some r' ∧
          r'.mapsPkColumn ⟨"p2"⟩ ∧ ∀ m ∈ r'.columns, m.pkColumnId = ⟨"p2"⟩ →
            m ∈ (keyedOnParent []).columns ∨ holder'.isKeyColumn m.fkColumnId := by
  have hv : (keyedPair []).validate = .ok () := by rfl
  obtain ⟨db', happ⟩ :
      ∃ db', (Editor.apply {} { seed := 0 } (keyedPair []) addP2ToKey).result = .ok db' :=
    ⟨_, rfl⟩
  exact ⟨hv, db', happ, Editor.apply_addColumnToConstraint_propagates hv happ ⟨_, rfl, rfl⟩ rfl rfl
    ⟨_, rfl, rfl⟩ rfl rfl rfl⟩

set_option maxRecDepth 100000 in
/-- A relationship that maps `p2` already, onto `f2` outside the key of `h`, is passed over when
`p2` joins the key of `p`: the operation succeeds, and the snapshot it gives is refused. -/
theorem Editor.addToKey_keeps_unkeyed_mapping :
    (keyedPair [⟨⟨"rf2"⟩, ⟨"f2"⟩, ⟨"p2"⟩, 2⟩]).validate = .ok () ∧
      ∃ db', (Editor.apply {} { seed := 0 } (keyedPair [⟨⟨"rf2"⟩, ⟨"f2"⟩, ⟨"p2"⟩, 2⟩])
        addP2ToKey).result = .ok db' ∧
        db'.validate = .error (.identifyingKeyNotPropagated "h" "p" "p2") :=
  ⟨by rfl, _, rfl, by rfl⟩

end SchemaDesign
