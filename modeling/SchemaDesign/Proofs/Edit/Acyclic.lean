import SchemaDesign.Proofs.Edit.Operations
import SchemaDesign.Proofs.Validation
import SchemaDesign.Editor

/-!
# Identifying relationships stay acyclic

Every operation applied to an accepted snapshot gives a snapshot whose identifying
relationships form no cycle, within each schema (`Editor.apply_identifying_acyclic`).

The invariant carried from step to step is `Database.Layered`. Most operations keep it because
they add no link at all (`Operation.keeps_run`). The others are taken one by one: a new schema
has no tables, a new table has a fresh id and name and no relationship, a renamed table gets a
name no other table has, dropping schemas or tables drops dependencies, and the two operations
that add an identifying link check first, with the provider search, that the provider does not
reach the holder. Making a relationship identifying asks the search to ignore that relationship,
which only matters when another relationship has its id; an accepted snapshot has none.
-/

namespace SchemaDesign

namespace Schema

variable {s s' : Schema}

/-- A schema without tables is layered. -/
theorem layered_of_tables_eq_nil (h : s.tables = []) : s.Layered where
  ids_nodup := by simp [h]
  names_nodup := by simp [h]
  acyclic x hx := by
    obtain ⟨c, hxc, -⟩ := Relation.TransGen.head'_iff.1 hx
    obtain ⟨t, ht, -⟩ := hxc.exists_table
    simp [h] at ht

/-- Keeping some of the tables keeps a schema layered. -/
theorem Layered.of_sublist (h : s.Layered) (hsub : List.Sublist s'.tables s.tables) :
    s'.Layered where
  ids_nodup := h.ids_nodup.sublist (hsub.map _)
  names_nodup := h.names_nodup.sublist (hsub.map _)
  acyclic x hx := by
    refine h.acyclic x (Relation.TransGen.mono (fun a b hd => ?_) _ _ hx)
    obtain ⟨t, ht, hta, hp⟩ := hd
    exact ⟨t, hsub.subset ht, hta, hp⟩

/-- A table with a fresh id and a fresh name and no identifying relationship can join a
layered schema. -/
theorem Layered.append (h : s.Layered) {t : Table} (hid : ∀ u ∈ s.tables, u.id ≠ t.id)
    (hname : ∀ u ∈ s.tables, u.name ≠ t.name) (hprov : t.providers = [])
    (hs' : s'.tables = s.tables ++ [t]) : s'.Layered where
  ids_nodup := by
    rw [hs', List.map_append, List.nodup_append]
    refine ⟨h.ids_nodup, by simp, ?_⟩
    simp only [List.mem_map, List.mem_singleton]
    rintro _ ⟨u, hu, rfl⟩ _ ⟨_, rfl, rfl⟩
    exact hid u hu
  names_nodup := by
    rw [hs', List.map_append, List.nodup_append]
    refine ⟨h.names_nodup, by simp, ?_⟩
    simp only [List.mem_map, List.mem_singleton]
    rintro _ ⟨u, hu, rfl⟩ _ ⟨_, rfl, rfl⟩
    exact hname u hu
  acyclic x hx := by
    refine h.acyclic x (Relation.TransGen.mono (fun a b hd => ?_) _ _ hx)
    obtain ⟨u, hu, hua, hp⟩ := hd
    rw [hs', List.mem_append, List.mem_singleton] at hu
    rcases hu with hu | rfl
    · exact ⟨u, hu, hua, hp⟩
    · simp [hprov] at hp

/-- Renaming the table `tid` to a name that only tables with id `tid` have keeps the names
distinct, when the ids are. -/
theorem names_nodup_rename {name : String} {tid : Id} : ∀ {ts : List Table},
    (ts.map (·.id)).Nodup → (ts.map (·.name)).Nodup → (∀ u ∈ ts, u.name = name → u.id = tid) →
      ((updateFirst (·.id = tid) (fun t => { t with name }) ts).map (·.name)).Nodup
  | [], _, _, _ => by simp [updateFirst]
  | t :: ts, hid, hn, hfresh => by
    rw [List.map_cons, List.nodup_cons] at hid hn
    unfold updateFirst
    split
    next ht =>
      -- `t` is renamed; no later table has the new name, since it would have `t`'s id
      refine List.nodup_cons.2 ⟨fun hm => ?_, hn.2⟩
      obtain ⟨u, hu, hun⟩ := List.mem_map.1 hm
      have htid : t.id = tid := by simpa using ht
      have hut : u.id = t.id := (hfresh u (List.mem_cons_of_mem _ hu) hun).trans htid.symm
      exact hid.1 (List.mem_map.2 ⟨u, hu, hut⟩)
    next ht =>
      refine List.nodup_cons.2 ⟨fun hm => ?_,
        names_nodup_rename hid.2 hn.2 fun u hu => hfresh u (List.mem_cons_of_mem _ hu)⟩
      obtain ⟨u, hu, hun⟩ := List.mem_map.1 hm
      rcases mem_updateFirst hu with hu | ⟨x, -, rfl⟩
      · exact hn.1 (List.mem_map.2 ⟨u, hu, hun⟩)
      · -- `t` would have the new name, hence the id `tid`
        exact ht (by simpa using hfresh t List.mem_cons_self hun.symm)

/-- A table renamed to a name no other table has keeps a layered schema layered. -/
theorem Layered.rename (h : s.Layered) {name : String} {tid : Id}
    (hfresh : ∀ u ∈ s.tables, u.name = name → u.id = tid)
    (hs' : s'.tables = updateFirst (·.id = tid) (fun t => { t with name }) s.tables) :
    s'.Layered where
  ids_nodup := by
    have hF : List.Forall₂ (fun a b : Table => b.id = a.id) s.tables s'.tables := by
      rw [hs']
      refine forall₂_updateFirst ?_ _ _ _ ?_ <;> intros <;> rfl
    exact (forall₂_map_eq hF fun _ _ h => h) ▸ h.ids_nodup
  names_nodup := hs' ▸ names_nodup_rename h.ids_nodup h.names_nodup hfresh
  acyclic x hx := by
    refine h.acyclic x (Relation.TransGen.mono (fun a b hd => ?_) _ _ hx)
    obtain ⟨u, hu, hua, hp⟩ := hd
    rw [hs'] at hu
    rcases mem_updateFirst hu with hu | ⟨v, hv, rfl⟩
    · exact ⟨u, hu, hua, hp⟩
    · exact ⟨v, List.mem_of_find?_eq_some hv, hua, hp⟩

end Schema

/-- Each successful run keeps a layered snapshot layered. -/
def Database.KeepsLayered (db db' : Database) : Prop := db.Layered → db'.Layered

instance : IsPreorder Database Database.KeepsLayered where
  refl _ h := h
  trans _ _ _ h₁ h₂ h := h₂ (h₁ h)

namespace Database.Layered

variable {db : Database} {sid : Id} {s : Schema}

/-- Changing the schema `sid` into a layered one keeps a snapshot layered. -/
theorem updateSchema (h : db.Layered) (hs : db.schema? sid = some s) {f : Schema → Schema}
    (hf : (f s).Layered) : ({ db with schemas := updateFirst (·.id = sid) f db.schemas } :
      Database).Layered := by
  intro s' hs'
  rcases mem_updateFirst hs' with hs' | ⟨x, hx, rfl⟩
  · exact h s' hs'
  · rw [Database.schema?, hx] at hs
    cases hs
    exact hf

/-- One new link from `h` to `p`, in a schema where `p` does not reach `h`. -/
theorem updateTable_link (hL : db.Layered) (hs : db.schema? sid = some s) {tid : Id} {t : Table}
    (ht : s.table? tid = some t) {f : Table → Table} {h p : Id}
    (hlink : t.LinksWithin (fun a b => a = h ∧ b = p) (f t))
    (hph : ¬Relation.ReflTransGen s.DependsOn p h) : (db.updateTable sid tid f).Layered := by
  refine hL.updateSchema hs ((hL s (List.mem_of_find?_eq_some hs)).of_forall₂_link hph ?_)
  refine forall₂_updateFirst (fun t => Std.Refl.refl t) _ _ _ fun t' ht' => ?_
  rw [Schema.table?, ht'] at ht
  cases ht
  exact hlink

end Database.Layered

theorem Schema.relationship?_spec {s : Schema} {rid : Id} {holder : Table} {r : Relationship}
    (h : s.relationship? rid = some (holder, r)) :
    holder ∈ s.tables ∧ holder.relationships.find? (·.id = rid) = some r := by
  obtain ⟨t, ht, hf⟩ := List.exists_of_findSome?_eq_some h
  obtain ⟨r', hr', he⟩ := Option.map_eq_some_iff.1 hf
  cases he
  exact ⟨ht, hr'⟩

/-- With distinct relationship ids, a relationship found non-identifying is the only one with
its id, so ignoring that id ignores no identifying relationship. -/
theorem Schema.ignores_no_identifying {s : Schema} (hids : (s.relationships.map (·.id)).Nodup)
    {rid : Id} {holder : Table} {r : Relationship} (h : s.relationship? rid = some (holder, r))
    (hr : r.isIdentifying = false) :
    ∀ t ∈ s.tables, ∀ r' ∈ t.relationships, r'.isIdentifying → some r'.id ≠ some rid := by
  obtain ⟨hholder, hfind⟩ := relationship?_spec h
  have hrid : r.id = rid := by simpa using List.find?_some hfind
  intro t ht r' hr' hi he
  have hmem : ∀ {u : Table} {x : Relationship}, u ∈ s.tables → x ∈ u.relationships →
      x ∈ s.relationships := fun hu hx => List.mem_flatMap.2 ⟨_, hu, hx⟩
  have : r' = r := List.inj_on_of_nodup_map hids (hmem ht hr')
    (hmem hholder (List.mem_of_find?_eq_some hfind)) ((Option.some.inj he).trans hrid.symm)
  rw [this, hr] at hi
  exact Bool.false_ne_true hi

theorem Database.id_ne_of_usesId {db : Database} {i : Id} (h : db.usesId i = false) {s : Schema}
    (hs : s ∈ db.schemas) {t : Table} (ht : t ∈ s.tables) : t.id ≠ i := by
  simp only [Database.usesId, Bool.or_eq_false_iff, List.any_eq_false, Table.usesId] at h
  have := h.2 s hs
  simp only [Bool.or_eq_true, decide_eq_true_eq, not_or, List.any_eq_true, not_exists,
    not_and] at this
  exact (this.2 t ht).1.1.1.1

/-- A cycle check that passes rules out a path from the provider back to the holder. -/
theorem Schema.not_reaches_of_ensureAcyclic {s : Schema} (hids : (s.tables.map (·.id)).Nodup)
    {ignore : Option Id}
    (hig : ∀ t ∈ s.tables, ∀ r ∈ t.relationships, r.isIdentifying → some r.id ≠ ignore)
    {fk pk : Id} (h : s.ensureAcyclic fk pk ignore = .ok ()) :
    ¬Relation.ReflTransGen s.DependsOn pk fk := by
  unfold ensureAcyclic at h
  split at h
  · cases h
  next hr => exact not_reaches_of_reachesProvider hids hig (Bool.eq_false_iff.2 hr)

/-- A relationship appended to a table links the table to its provider, if it is
identifying. -/
theorem Table.linksWithin_append {E : Id → Id → Prop} (t : Table) (r : Relationship)
    (hE : r.isIdentifying → E t.id r.pkTableId) :
    t.LinksWithin E { t with relationships := t.relationships ++ [r] } := by
  refine ⟨rfl, rfl, fun p hp => ?_⟩
  obtain ⟨r', hr', hi, rfl⟩ := Table.mem_providers.1 hp
  rcases List.mem_append.1 hr' with hr' | hr'
  · exact .inl (Table.mem_providers.2 ⟨r', hr', hi, rfl⟩)
  · rw [List.mem_singleton.1 hr'] at hi ⊢
    exact .inr (hE hi)

/-- Changing the first relationship with an id, keeping its provider, links the table at most
to that provider. -/
theorem Table.linksWithin_updateFirst {t : Table} {p : Relationship → Bool} {r : Relationship}
    (hfind : t.relationships.find? p = some r) {f : Relationship → Relationship}
    (hf : (f r).pkTableId = r.pkTableId) :
    t.LinksWithin (fun a b => a = t.id ∧ b = r.pkTableId)
      { t with relationships := updateFirst p f t.relationships } := by
  refine ⟨rfl, rfl, fun q hq => ?_⟩
  obtain ⟨r', hr', hi, rfl⟩ := Table.mem_providers.1 hq
  rcases mem_updateFirst hr' with hr' | ⟨x, hx, rfl⟩
  · exact .inl (Table.mem_providers.2 ⟨r', hr', hi, rfl⟩)
  · rw [hfind] at hx
    cases hx
    exact .inr ⟨rfl, hf⟩

/-- Each schema's relationships have distinct ids. -/
def Database.RelationshipIdsNodup (db : Database) : Prop :=
  ∀ s ∈ db.schemas, (s.relationships.map (·.id)).Nodup

namespace EditM

theorem reads_relationship (sid rid : Id) :
    Reads (fun found db => ∃ s, db.schema? sid = some s ∧ s.relationship? rid = some found)
      (relationship sid rid) := by
  unfold relationship
  refine Reads.bind (reads_schema sid) fun s => ?_
  split
  next found hfound => exact Reads.pure fun _ hs => ⟨s, hs, hfound⟩
  next => exact Reads.throw _

/-- A table name check that passes: every table with the name is the excluded one. -/
theorem reads_checkTableName (sid : Id) (name : String) (exclude : Option Id) :
    Reads (fun _ db => ∀ s, db.schema? sid = some s → ∀ t ∈ s.tables, t.name = name →
      isExcluded exclude t.id = true) (checkTableName sid name exclude) := by
  unfold checkTableName
  dsimp only
  refine Reads.bind_keeps keeps_config fun _ => ?_
  split
  · exact Reads.throw_bind _ _
  refine Reads.bind (reads_schema sid) fun s => ?_
  split
  · exact Reads.throw _
  next hnone =>
    refine Reads.pure fun db hs s' hs' t ht hname => ?_
    rw [hs] at hs'
    cases hs'
    simp only [List.any_eq_true, Bool.and_eq_true, decide_eq_true_eq, Bool.not_eq_true',
      not_exists, not_and] at hnone
    simpa using hnone t ht hname

theorem Keeps.keepsLayered {α : Type} {x : EditM α} (h : Keeps Database.NoNewLinks x) :
    Keeps Database.KeepsLayered x :=
  h.mono fun _ _ hT hL => hL.of_tablewise hT

/-! ## The operations that reshape a schema -/

theorem keepsLayered_createSchema (d : SchemaDraft) :
    Keeps Database.KeepsLayered (createSchema d) := by
  unfold createSchema
  refine Keeps.bind (keeps_checkSchemaName _ _) fun _ =>
    Keeps.bind (keeps_ensureFreshId _ _).of_eq fun _ => ?_
  refine Keeps.bind_reads reads_database fun db => keepsFrom_setDatabase fun db' hdb hL => ?_
  subst hdb
  intro s hs
  rcases List.mem_append.1 hs with hs | hs
  · exact hL s hs
  · rw [List.mem_singleton.1 hs]
    exact Schema.layered_of_tables_eq_nil rfl

theorem keepsLayered_deleteSchema (sid : Id) : Keeps Database.KeepsLayered (deleteSchema sid) := by
  unfold deleteSchema
  refine Keeps.bind (keeps_schema _).of_eq fun _ => Keeps.bind_reads reads_database fun db => ?_
  refine KeepsFrom.bind_eq keeps_config fun _ => ?_
  dsimp only
  split
  · exact (Keeps.throw_bind _ _).keepsFrom
  · refine keepsFrom_setDatabase fun db' hdb hL s hs => ?_
    subst hdb
    exact hL s (List.mem_of_mem_filter hs)

/-- A new table has a fresh id, a name no table of its schema has, and no relationship. -/
theorem keepsLayered_createTable (sid : Id) (d : TableDraft) :
    Keeps Database.KeepsLayered (createTable sid d) := by
  unfold createTable
  refine Keeps.bind_reads (reads_checkTableName _ _ _) fun _ =>
    KeepsFrom.bind_reads (reads_ensureFreshId _ _) fun _ => ?_
  refine keepsFrom_modifySchema fun db s ⟨hname, hfresh⟩ hs hL => hL.updateSchema hs ?_
  have hsm := List.mem_of_find?_eq_some hs
  refine (hL s hsm).append (fun u hu => Database.id_ne_of_usesId hfresh hsm hu) (fun u hu he => ?_)
    rfl rfl
  have := hname s hs u hu he
  simp [isExcluded] at this

/-- Deleting a table deletes relationships, then drops the table. -/
theorem keepsLayered_deleteTable (sid tid : Id) :
    Keeps Database.KeepsLayered (deleteTable sid tid) := by
  unfold deleteTable
  refine Keeps.bind (keeps_table _ _).of_eq fun _ => Keeps.bind (keeps_schema _).of_eq fun _ => ?_
  refine Keeps.bind (Keeps.forM (fun rid => ?_) _) fun _ => ?_
  · refine Keeps.bind (keeps_schema _).of_eq fun _ => ?_
    split
    · exact (keeps_deleteRelationship _ _).keepsLayered
    · exact Keeps.pure _
  · refine KeepsFrom.keeps (keepsFrom_modifySchema fun db s _ hs hL => hL.updateSchema hs ?_)
    exact (hL s (List.mem_of_find?_eq_some hs)).of_sublist List.filter_sublist

/-- A table is renamed only to a name that no other table of its schema has. -/
theorem keepsLayered_changeTableName (sid tid : Id) (name : String) :
    Keeps Database.KeepsLayered (changeTableName sid tid name) := by
  unfold changeTableName
  refine Keeps.bind (keeps_table _ _).of_eq fun _ =>
    Keeps.bind_reads (reads_checkTableName _ _ _) fun _ => ?_
  refine keepsFrom_modifyTable fun db s _ hname hs _ hL => hL.updateSchema hs ?_
  refine (hL s (List.mem_of_find?_eq_some hs)).rename (fun u hu he => ?_) rfl
  have hex := hname s hs u hu he
  simp only [isExcluded, beq_iff_eq, Option.some.injEq] at hex
  exact hex.symm

/-- A relationship made identifying adds one link, from its holder to its provider, when no
path leads back. -/
theorem keepsFrom_modifyRelationship_link {P : Database → Prop} {sid rid : Id}
    {f : Relationship → Relationship} (hf : ∀ r, (f r).pkTableId = r.pkTableId)
    (hback : ∀ db, P db → db.Layered → ∀ s, db.schema? sid = some s → ∀ holder r,
      s.relationship? rid = some (holder, r) → ¬Relation.ReflTransGen s.DependsOn r.pkTableId holder.id) :
    KeepsFrom P Database.KeepsLayered (modifyRelationship sid rid f) := by
  unfold modifyRelationship putTable
  refine KeepsFrom.bind_reads (reads_relationship _ _) fun found =>
    KeepsFrom.bind_reads (reads_table _ _) fun t => ?_
  dsimp only
  split
  · exact (Keeps.throw_bind _ _).keepsFrom
  refine keepsFrom_modifyTable fun db s t₀ ⟨⟨hP, s₁, hs₁, hfound⟩, s₂, hs₂, ht⟩ hs ht₀ hL => ?_
  rw [hs] at hs₁ hs₂
  cases hs₁
  cases hs₂
  rw [ht] at ht₀
  cases ht₀
  obtain ⟨hmem, hfind⟩ := Schema.relationship?_spec hfound
  have hholder : t = found.1 := by
    rw [Schema.table?_of_mem (hL s (List.mem_of_find?_eq_some hs)).ids_nodup hmem] at ht
    exact (Option.some.inj ht).symm
  subst hholder
  exact hL.updateTable_link hs ht (Table.linksWithin_updateFirst hfind (hf _))
    (hback db hP hL s hs _ _ hfound)

/-- An identifying relationship is created only when its provider does not reach its
holder. -/
theorem keepsLayered_createRelationship (sid : Id) (d : RelationshipDraft) :
    Keeps Database.KeepsLayered (createRelationship sid d) := by
  unfold createRelationship
  dsimp only
  refine Keeps.bind (keeps_table _ _).of_eq fun _ => Keeps.bind (keeps_provider _ _) fun _ =>
    Keeps.bind (keeps_checkRelationshipName _ _ _ _) fun _ =>
    Keeps.bind (keeps_ensureFreshId _ _).of_eq fun _ => ?_
  split
  · exact Keeps.throw_bind _ _
  refine Keeps.bind (keeps_check _).of_eq fun _ => ?_
  split
  next hkind =>
    -- the new link: the search has ruled out a path from the provider back to the holder
    refine Keeps.bind_reads (reads_schema sid) fun s =>
      KeepsFrom.bind_reads (reads_check _) fun _ => KeepsFrom.bind ?_ fun _ => ?_
    · refine keepsFrom_modifyTable fun db s' t ⟨hs, hcheck⟩ hs' ht hL => ?_
      rw [hs] at hs'
      cases hs'
      have hids := (hL s (List.mem_of_find?_eq_some hs)).ids_nodup
      have htid : t.id = d.fkTableId := (Schema.mem_of_table? ht).2
      exact hL.updateTable_link hs ht (Table.linksWithin_append t _ fun _ => ⟨htid, rfl⟩)
        (Schema.not_reaches_of_ensureAcyclic hids (fun _ _ _ _ _ => Option.some_ne_none _) hcheck)
    · refine Keeps.keepsLayered (Keeps.bind (Keeps.forM (fun _ =>
        Keeps.bind (keeps_attachForeignKey _ _ _ _ _) fun _ => Keeps.pure _) _) fun _ => ?_)
      exact Keeps.bind (keeps_completeIdentifying _ _) fun _ => keeps_revalidateRelationship _ _
  next hkind =>
    refine Keeps.keepsLayered (Keeps.bind (keeps_modifyTable fun t _ =>
      Table.linksWithin_append t _ fun hi => absurd (by simpa [Relationship.isIdentifying] using hi)
        hkind) fun _ => ?_)
    exact Keeps.bind (Keeps.forM (fun _ =>
      Keeps.bind (keeps_attachForeignKey _ _ _ _ _) fun _ => Keeps.pure _) _) fun _ =>
        keeps_revalidateRelationship _ _

/-- A relationship is made identifying only when its provider does not reach its holder,
other than through the relationship itself; with distinct relationship ids, it is the only
one the search ignores. -/
theorem keepsLayered_changeRelationshipKind (sid rid : Id) (kind : RelationshipKind) :
    KeepsFrom Database.RelationshipIdsNodup Database.KeepsLayered
      (changeRelationshipKind sid rid kind) := by
  unfold changeRelationshipKind
  dsimp only
  refine KeepsFrom.bind_reads (reads_relationship _ _) fun found => ?_
  split
  · exact (Keeps.pure _).keepsFrom
  next hkind =>
  cases kind with
  | identifying =>
    refine KeepsFrom.bind_reads (reads_schema sid) fun s =>
      KeepsFrom.bind_reads (reads_check _) fun _ => KeepsFrom.bind ?_ fun _ =>
        Keeps.bind (keeps_completeIdentifying _ _).keepsLayered fun _ => keeps_revalidateRelationship _ _
    refine keepsFrom_modifyRelationship_link (fun _ => rfl) ?_
    rintro db ⟨⟨⟨hrids, s₁, hs₁, hfound⟩, hs⟩, hcheck⟩ hL s' hs' holder r hr
    obtain rfl : s = s₁ := Option.some.inj (hs.symm.trans hs₁)
    obtain rfl : s = s' := Option.some.inj (hs.symm.trans hs')
    rw [hfound] at hr
    cases hr
    have hsm := List.mem_of_find?_eq_some hs
    have hnot : r.isIdentifying = false := by simpa [Relationship.isIdentifying] using hkind
    exact Schema.not_reaches_of_ensureAcyclic (hL s hsm).ids_nodup
      (Schema.ignores_no_identifying (hrids s hsm) hfound hnot) hcheck
  | nonIdentifying =>
    -- the relationship stops being identifying, and the key columns it kept go
    refine Keeps.keepsFrom (Keeps.keepsLayered ?_)
    refine Keeps.bind (keeps_modifyRelationship _ _ fun r hi => ?_) fun _ =>
      Keeps.bind (keeps_removeFromPrimaryKey _ _ _) fun _ =>
      Keeps.bind (keeps_cascadeKeyRemoval _ _ _) fun _ => keeps_revalidateRelationship _ _
    simp [Relationship.isIdentifying] at hi

end EditM

namespace Operation

open EditM

/-- Every operation keeps a layered snapshot layered, when the relationships of each schema have
distinct ids. -/
theorem keepsLayered_run (op : Operation) :
    KeepsFrom Database.RelationshipIdsNodup Database.KeepsLayered op.run := by
  cases h : op.reshapes
  · exact (keeps_run op h).keepsLayered.keepsFrom
  cases op <;> simp only [reshapes, Bool.false_eq_true] at h
  case createSchema d => exact (keepsLayered_createSchema d).keepsFrom
  case deleteSchema sid => exact (keepsLayered_deleteSchema sid).keepsFrom
  case createTable sid d => exact (keepsLayered_createTable sid d).keepsFrom
  case deleteTable sid tid => exact (keepsLayered_deleteTable sid tid).keepsFrom
  case changeTableName sid tid name => exact (keepsLayered_changeTableName sid tid name).keepsFrom
  case createRelationship sid d => exact (keepsLayered_createRelationship sid d).keepsFrom
  case changeRelationshipKind sid rid kind => exact keepsLayered_changeRelationshipKind sid rid kind

end Operation

theorem Database.relationshipIdsNodup_of_validate {db : Database} (h : db.validate = .ok ()) :
    db.RelationshipIdsNodup :=
  fun _ hs => relationshipIds_nodup (labelledIds_nodup_of_validate h) hs

/-- Applying any operation to an accepted snapshot gives, when it succeeds, a snapshot where in
every schema the identifying relationships form no cycle, self-loops included, so that the
schema's dependency order reports no cycle. -/
theorem Editor.apply_identifying_acyclic {config : EditorConfig} {supply : IdSupply}
    {db db' : Database} {op : Operation} (hv : db.validate = .ok ())
    (happ : (Editor.apply config supply db op).result = .ok db') :
    ∀ s ∈ db'.schemas, (∀ x, ¬Relation.TransGen s.DependsOn x x) ∧ s.identifyingOrder.cycle = none := by
  unfold Editor.apply at happ
  split at happ
  next st hrun =>
    cases happ
    have hL : st.db.Layered := op.keepsLayered_run _ _ _ (Database.relationshipIdsNodup_of_validate hv)
      hrun (Database.layered_of_validate hv)
    exact fun s hs => ⟨(hL s hs).acyclic, (hL s hs).identifyingOrder_cycle⟩
  next => cases happ

/-- A schema with two tables: `orders`, keyed by its column `id`, and `lines`, without a key. -/
def ordersAndLines : Database :=
  ⟨⟨"db"⟩, [⟨⟨"s"⟩, ⟨"db"⟩, "shop", .mysql, none, none, [
    ⟨⟨"orders"⟩, ⟨"s"⟩, "orders", none,
      [⟨⟨"o1"⟩, ⟨"orders"⟩, "id", 1, some "INT", none, false, none, none, none⟩], [],
      [⟨⟨"pk"⟩, ⟨"orders"⟩, "pk_orders", .primaryKey, none, none, [⟨⟨"pk1"⟩, ⟨"o1"⟩, 1⟩]⟩], []⟩,
    ⟨⟨"lines"⟩, ⟨"s"⟩, "lines", none,
      [⟨⟨"l1"⟩, ⟨"lines"⟩, "qty", 1, some "INT", none, false, none, none, none⟩], [], [], []⟩]⟩]⟩

/-- Makes `lines` identified by `orders`, mapping the key of `orders` into a new column. -/
def linesOnOrders : Operation :=
  .createRelationship ⟨"s"⟩ ⟨⟨"r"⟩, ⟨"lines"⟩, ⟨"orders"⟩, "fk_lines_orders", .identifying,
    .oneToMany, .noAction, .noAction, [⟨⟨"m1"⟩, ⟨"o1"⟩, ⟨"l2"⟩, none⟩]⟩

set_option maxRecDepth 100000 in
theorem Editor.linesOnOrders_identifying_acyclic :
    ordersAndLines.validate = .ok () ∧
      ∃ db', (Editor.apply {} { seed := 0 } ordersAndLines linesOnOrders).result = .ok db' ∧
        ∀ s ∈ db'.schemas, (∀ x, ¬Relation.TransGen s.DependsOn x x) ∧
          s.identifyingOrder.cycle = none := by
  have hv : ordersAndLines.validate = .ok () := by rfl
  obtain ⟨db', happ⟩ :
      ∃ db', (Editor.apply {} { seed := 0 } ordersAndLines linesOnOrders).result = .ok db' :=
    ⟨_, rfl⟩
  exact ⟨hv, db', happ, Editor.apply_identifying_acyclic hv happ⟩

end SchemaDesign
