import SchemaDesign.Proofs.Edit.NameScopes
import SchemaDesign.Proofs.Edit.Resequencing

/-!
# Steps that keep name scopes unique

`Database.KeepsUniqueNames` relates two snapshots when unique names in the first give unique
names in the second; it is a preorder, so the composite steps keep it once their parts do
(`Composite`).

The parts that bring a name in read its scope just before:

- a name from the caller is checked, and the check reads the scope it is unique in;
- `freshConstraintName` picks a name absent from the schema's constraints, which a NOT_NULL
  constraint or a new `pk_<table>` key then takes;
- `attachForeignKey` names a new holder column as given, checked, or `<provider>_<column>` made
  unique among the holder's columns, and appends it to the holder it read.

Every other part keeps, drops or renames in place (`Table.NamesWithin`).
-/

namespace SchemaDesign

/-- Unique names in every scope of `db` give unique names in every scope of `db'`. -/
def Database.KeepsUniqueNames (db db' : Database) : Prop := db.NamesUnique → db'.NamesUnique

instance : IsPreorder Database Database.KeepsUniqueNames where
  refl _ h := h
  trans _ _ _ h₁ h₂ h := h₂ (h₁ h)

/-! ## Name checks -/

/-- A name check that excludes nothing leaves the name free. -/
theorem not_mem_of_excluded_none {α : Type} {xs : List α} {name : α → String} {key : α → Id}
    {n : String} (h : ∀ x ∈ xs, name x = n → EditM.isExcluded none (key x) = true) :
    n ∉ xs.map name := by
  intro hn
  obtain ⟨x, hx, rfl⟩ := List.mem_map.1 hn
  simpa [EditM.isExcluded] using h x hx rfl

/-- A name check that excludes an id leaves the name to that id. -/
theorem key_eq_of_excluded_some {α : Type} {xs : List α} {name : α → String} {key : α → Id}
    {n : String} {k : Id} (h : ∀ x ∈ xs, name x = n → EditM.isExcluded (some k) (key x) = true) :
    ∀ x ∈ xs, name x = n → key x = k := by
  intro x hx hn
  have hk := h x hx hn
  simp only [EditM.isExcluded, beq_iff_eq, Option.some.injEq] at hk
  exact hk.symm

namespace EditM

theorem reads_checkSchemaName (name : String) (exclude : Option Id) :
    Reads (fun _ db => ∀ s ∈ db.schemas, s.name = name → isExcluded exclude s.id = true)
      (checkSchemaName name exclude) := by
  unfold checkSchemaName
  dsimp only
  refine Reads.bind_keeps keeps_config fun _ => ?_
  split
  · exact Reads.throw_bind _ _
  refine Reads.bind reads_database fun db => ?_
  split
  · exact Reads.throw _
  next hnone =>
    refine Reads.pure fun db' hdb s hs hname => ?_
    subst hdb
    simp only [List.any_eq_true, Bool.and_eq_true, decide_eq_true_eq, Bool.not_eq_true',
      not_exists, not_and] at hnone
    simpa using hnone s hs hname

theorem reads_checkColumnName (sid tid : Id) (name : String) (exclude : Option Id) :
    Reads (fun _ db => ∀ t, db.FindsTable sid tid t → ∀ c ∈ t.columns, c.name = name →
      isExcluded exclude c.id = true) (checkColumnName sid tid name exclude) := by
  unfold checkColumnName
  dsimp only
  refine Reads.bind_keeps keeps_config fun _ => ?_
  split
  · exact Reads.throw_bind _ _
  split
  · exact Reads.throw_bind _ _
  refine Reads.bind (reads_table _ _) fun t => ?_
  split
  · exact Reads.throw _
  next hnone =>
    refine Reads.pure fun db ht t' ht' c hc hname => ?_
    obtain rfl := ht'.unique ht
    simp only [List.any_eq_true, Bool.and_eq_true, decide_eq_true_eq, Bool.not_eq_true',
      not_exists, not_and] at hnone
    simpa using hnone c hc hname

theorem reads_checkIndexName (sid : Id) (name : String) (exclude : Option Id) :
    Reads (fun _ db => ∀ s, db.schema? sid = some s → ∀ i ∈ s.indexes, i.name = name →
      isExcluded exclude i.id = true) (checkIndexName sid name exclude) := by
  unfold checkIndexName
  dsimp only
  refine Reads.bind_keeps keeps_config fun _ => ?_
  split
  · exact Reads.throw_bind _ _
  refine Reads.bind (reads_schema sid) fun s => ?_
  split
  · exact Reads.throw _
  next hnone =>
    refine Reads.pure fun db hs s' hs' i hi hname => ?_
    rw [hs] at hs'
    cases hs'
    simp only [List.any_eq_true, Bool.and_eq_true, decide_eq_true_eq, Bool.not_eq_true',
      not_exists, not_and] at hnone
    simpa using hnone i hi hname

theorem reads_checkConstraintName (sid : Id) (name : String) (exclude : Option Id) :
    Reads (fun _ db => ∀ s, db.schema? sid = some s → ∀ k ∈ s.constraints, k.name = name →
      isExcluded exclude k.id = true) (checkConstraintName sid name exclude) := by
  unfold checkConstraintName
  dsimp only
  refine Reads.bind_keeps keeps_config fun _ => ?_
  split
  · exact Reads.throw_bind _ _
  refine Reads.bind (reads_schema sid) fun s => ?_
  split
  · exact Reads.throw _
  next hnone =>
    refine Reads.pure fun db hs s' hs' k hk hname => ?_
    rw [hs] at hs'
    cases hs'
    simp only [List.any_eq_true, Bool.and_eq_true, decide_eq_true_eq, Bool.not_eq_true',
      not_exists, not_and] at hnone
    simpa using hnone k hk hname

theorem reads_checkRelationshipName (sid tid : Id) (name : String) (exclude : Option Id) :
    Reads (fun _ db => ∀ t, db.FindsTable sid tid t → ∀ r ∈ t.relationships, r.name = name →
      isExcluded exclude r.id = true) (checkRelationshipName sid tid name exclude) := by
  unfold checkRelationshipName
  dsimp only
  refine Reads.bind_keeps keeps_config fun _ => ?_
  split
  · exact Reads.throw_bind _ _
  refine Reads.bind (reads_table _ _) fun t => ?_
  split
  · exact Reads.throw _
  next hnone =>
    refine Reads.pure fun db ht t' ht' r hr hname => ?_
    obtain rfl := ht'.unique ht
    simp only [List.any_eq_true, Bool.and_eq_true, decide_eq_true_eq, Bool.not_eq_true',
      not_exists, not_and] at hnone
    simpa using hnone r hr hname

/-! ## Changing a table -/

theorem keepsFrom_modifyTable_names {P : Database → Prop} {sid tid : Id} {f : Table → Table}
    (hf : ∀ db s t, P db → db.schema? sid = some s → s.table? tid = some t → s.NamesUnique →
      t.NamesFit s (f t)) :
    KeepsFrom P Database.KeepsUniqueNames (modifyTable sid tid f) :=
  keepsFrom_modifyTable fun _ s t hp hs ht hu =>
    hu.updateTable hs ht (hf _ s t hp hs ht (hu.schema hs))

theorem keeps_modifyTable_names {sid tid : Id} {f : Table → Table}
    (hf : ∀ t : Table, t.NamesWithin (f t)) :
    Keeps Database.KeepsUniqueNames (modifyTable sid tid f) :=
  KeepsFrom.keeps (keepsFrom_modifyTable_names fun _ _ t _ _ ht hu =>
    (hf t).fit hu (Schema.mem_of_table? ht).1)

theorem keepsFrom_putTable_names {sid tid : Id} {t t' : Table} (h : t.NamesWithin t') :
    KeepsFrom (Database.FindsTable sid tid t) Database.KeepsUniqueNames (putTable sid tid t') :=
  keepsFrom_modifyTable_names fun _ s t₀ ht hs ht₀ hu => by
    obtain rfl := ht.unique ⟨s, hs, ht₀⟩
    exact h.fit hu (Schema.mem_of_table? ht₀).1

theorem fit_appendColumn_found {db : Database} {sid tid : Id} {s : Schema} {t holder : Table}
    {c : Column} (hholder : db.FindsTable sid tid holder) (hs : db.schema? sid = some s)
    (ht : s.table? tid = some t) (hu : s.NamesUnique) (hc : c.name ∉ holder.columnNames) :
    t.NamesFit s ({ t with columns := t.columns ++ [c] } : Table).resequenceColumns := by
  obtain rfl := hholder.unique ⟨s, hs, ht⟩
  exact Table.fit_appendColumn hu (Schema.mem_of_table? ht).1 hc

/-! ## Generated names -/

/-- A generated constraint name is free in the schema read. -/
theorem reads_freshConstraintName (sid : Id) (base : String) :
    Reads (fun name db => ∀ s, db.schema? sid = some s → name ∉ s.constraintNames)
      (freshConstraintName sid base) := by
  unfold freshConstraintName
  refine Reads.bind (reads_schema sid) fun s => Reads.bind_keeps keeps_config fun _ => ?_
  refine Reads.pure fun db hs s' hs' => ?_
  rw [hs] at hs'
  cases hs'
  rw [← Schema.constraints_map_name]
  exact uniqueName_not_mem _ _ _

theorem reads_notNullConstraint_name (tid cid : Id) (name : String) :
    Reads (fun k _ => k.name = name) (notNullConstraint tid cid name) :=
  Reads.bind_keeps keeps_mint fun _ => Reads.bind_keeps keeps_mint fun _ => Reads.pure fun _ => rfl

theorem keepsNames_addNotNull (sid tid cid : Id) (tableName columnName : String) :
    Keeps Database.KeepsUniqueNames (addNotNull sid tid cid tableName columnName) := by
  unfold addNotNull
  refine Keeps.bind_reads (reads_freshConstraintName _ _) fun name => ?_
  refine KeepsFrom.bind_reads (reads_notNullConstraint_name _ _ _) fun k => ?_
  refine keepsFrom_modifyTable_names fun db s t hp hs ht hu => ?_
  obtain ⟨hfree, hk⟩ := hp
  exact Table.fit_appendConstraint hu (Schema.mem_of_table? ht).1 (hk ▸ hfree s hs)

/-- The table as read, with a key `pk_<table>` named freshly when it has none, fits. -/
theorem reads_withPrimaryKey (sid tid : Id) (t : Table) :
    Reads (fun t' db => ∀ s, db.schema? sid = some s → s.NamesUnique → t ∈ s.tables →
      t.NamesFit s t') (withPrimaryKey sid tid t) := by
  unfold withPrimaryKey
  split
  · exact Reads.pure fun _ _ _ hu ht => (Table.NamesWithin.refl t).fit hu ht
  · refine Reads.bind (reads_freshConstraintName _ _) fun name =>
      Reads.bind_keeps keeps_mint fun _ => ?_
    exact Reads.pure fun _ hfree s hs hu ht => Table.fit_appendConstraint hu ht (hfree s hs)

theorem keeps_appendKeyColumn (pk : Constraint) (c : Id) : Keeps Eq (appendKeyColumn pk c) :=
  fun _ _ _ h => (appendKeyColumn_run h).1.1.symm

/-- Key columns appended one by one keep the key's name. -/
theorem returns_appendKeyColumns_name {n : String} :
    ∀ (cs : List Id) (pk : Constraint), pk.name = n →
      Returns (fun pk' : Constraint => pk'.name = n) (cs.foldlM appendKeyColumn pk)
  | [], _, h => Returns.pure h
  | c :: cs, pk, h => by
    rw [List.foldlM_cons]
    refine Returns.bind ?_ fun k hk => returns_appendKeyColumns_name cs k hk
    unfold appendKeyColumn
    split
    · exact Returns.pure h
    · exact Returns.bind_right fun _ => Returns.pure h

/-- Growing the key keeps every name. -/
theorem reads_extendPrimaryKey (t : Table) (cs : List Id) :
    Reads (fun t' _ => t.NamesWithin t') (extendPrimaryKey t cs) := by
  unfold extendPrimaryKey
  split
  · exact Reads.pure fun _ => Table.NamesWithin.refl t
  next pk hpk =>
    refine Reads.bind (Reads.of_returns (Keeps.foldlM (fun k c => keeps_appendKeyColumn k c) cs pk)
      (returns_appendKeyColumns_name cs pk rfl)) fun pk' => Reads.pure fun _ hname => ?_
    -- the key replaced is the one found, whose name the grown key keeps
    refine Table.namesWithin_of_eq rfl rfl rfl (map_updateFirst_of_key _ fun k hk => ?_) rfl
    obtain rfl : k = pk := Option.some.inj (hk.symm.trans hpk)
    exact hname

/-- Adding to the primary key puts back the table read, with a key named freshly when it had
none. -/
theorem keepsNames_addToPrimaryKey (sid tid : Id) (cs : List Id) :
    Keeps Database.KeepsUniqueNames (addToPrimaryKey sid tid cs) := by
  unfold addToPrimaryKey
  refine Keeps.bind_reads (reads_table _ _) fun t => ?_
  refine KeepsFrom.bind_reads (reads_withPrimaryKey _ _ t) fun t' => ?_
  refine KeepsFrom.bind_reads (reads_extendPrimaryKey t' cs) fun t'' => ?_
  refine KeepsFrom.bind (keepsFrom_modifyTable_names fun db s t₀ hp hs ht hu => ?_) fun _ =>
    (keeps_check _).of_eq
  obtain ⟨⟨hfound, hfit⟩, hwithin⟩ := hp
  obtain rfl := hfound.unique ⟨s, hs, ht⟩
  exact (hfit s hs hu (Schema.mem_of_table? ht).1).within hwithin

/-- A new holder column is named as given, checked against the holder, or from the provider's
table and column and made unique among the holder's columns; the mapping renames nothing. -/
theorem keepsNames_attachForeignKey (sid hid rid pid : Id) (spec : FkSpec) :
    Keeps Database.KeepsUniqueNames (attachForeignKey sid hid rid pid spec) := by
  unfold attachForeignKey
  simp only [pure_bind]
  refine Keeps.bind (keeps_table _ _).of_eq fun provider => ?_
  split
  · refine Keeps.bind_reads (reads_table _ _) fun holder => ?_
    refine KeepsFrom.ite (fun _ => KeepsFrom.bind_eq (keeps_ensureFreshId _ _) fun _ => ?_) fun _ =>
      Keeps.keepsFrom ?_
    on_goal 1 =>
      split
      -- named by the spec, the check found no column of that name in the holder
      on_goal 1 =>
        refine KeepsFrom.bind_reads (reads_checkColumnName _ _ _ _) fun _ => ?_
        refine KeepsFrom.bind (keepsFrom_modifyTable_names fun _ _ _ hp hs ht hu => ?_) fun _ => ?_
        exact fit_appendColumn_found hp.1 hs ht hu (not_mem_of_excluded_none (hp.2 _ hp.1))
      on_goal 2 =>
        refine KeepsFrom.bind_eq keeps_config fun _ => ?_
        refine KeepsFrom.bind (keepsFrom_modifyTable_names fun _ _ _ hp hs ht hu => ?_) fun _ => ?_
        exact fit_appendColumn_found hp hs ht hu (uniqueName_not_mem _ _ _)
    all_goals
      refine Keeps.bind (keeps_ensureFreshId _ _).of_eq fun _ =>
        Keeps.bind (keeps_table _ _).of_eq fun _ => Keeps.ite (fun _ => Keeps.throw_bind _ _) fun _ => ?_
      exact Keeps.bind (keeps_modifyTable_names fun t => Table.namesWithin_changeRelationship t _
        fun _ => rfl) fun _ => Keeps.pure _
  · exact Keeps.throw _

/-! ## The cascades -/

theorem keepsNames_dropMapping (sid hid rid fk key : Id) :
    Keeps Database.KeepsUniqueNames (dropMapping sid hid rid fk key) := by
  have hstrip : ∀ t : Table, t.NamesWithin (t.dropLink rid fk key) := fun t =>
    Table.namesWithin_stripRelationship t _ _ fun _ => by rfl
  refine keeps_dropMapping_of (fun t => keepsFrom_putTable_names (hstrip t)) fun t => ?_
  exact keepsFrom_putTable_names ((hstrip t).trans (Table.namesWithin_detachColumn _ fk))

theorem keepsNames_cascadeKeyRemoval (sid : Id) (seeds : List (Id × Id)) (survive : Bool) :
    Keeps Database.KeepsUniqueNames (cascadeKeyRemoval sid seeds survive) :=
  keeps_cascadeKeyRemoval_of (keepsNames_dropMapping sid) seeds survive

theorem keepsNames_detachColumns (sid hid : Id) (cs : List Id) :
    Keeps Database.KeepsUniqueNames
      (modifyTable sid hid fun t => cs.foldl (fun t c => (t.detachColumn c).1) t) :=
  keeps_modifyTable_names (Table.namesWithin_foldl_detachColumn cs)

theorem keepsNames_releaseFkColumns (sid hid : Id) (fks : List Id) :
    Keeps Database.KeepsUniqueNames (releaseFkColumns sid hid fks) :=
  keeps_releaseFkColumns_of (keepsNames_dropMapping sid) (keepsNames_detachColumns sid) hid fks

theorem keepsNames_deleteRelationship (sid rid : Id) :
    Keeps Database.KeepsUniqueNames (deleteRelationship sid rid) :=
  keeps_deleteRelationship_of (keepsNames_dropMapping sid) (keepsNames_detachColumns sid)
    (fun _ t _ => keepsFrom_putTable_names (Table.namesWithin_eraseRelationship t _)) rid

theorem keepsNames_propagateKeys (sid pid : Id) (keys : List Id) :
    Keeps Database.KeepsUniqueNames (propagateKeys sid pid keys) :=
  keeps_propagateKeys_of (keepsNames_attachForeignKey sid) (keepsNames_addToPrimaryKey sid) pid keys

theorem keepsNames_completeIdentifying (sid rid : Id) :
    Keeps Database.KeepsUniqueNames (completeIdentifying sid rid) :=
  keeps_completeIdentifying_of (keepsNames_attachForeignKey sid) (keepsNames_addToPrimaryKey sid) rid

theorem keepsNames_mirrorTypeChange (sid tid cid : Id) (dataType : Option String)
    (ls : Option LengthScale) :
    Keeps Database.KeepsUniqueNames (mirrorTypeChange sid tid cid dataType ls) :=
  keeps_mirrorTypeChange_of dataType ls
    (fun _ c => keeps_modifyTable_names fun t => Table.namesWithin_updateColumn t c fun _ => rfl) tid cid

theorem keepsNames_modifyRelationship (sid rid : Id) {f : Relationship → Relationship}
    (hf : ∀ r, (f r).name = r.name) :
    Keeps Database.KeepsUniqueNames (modifyRelationship sid rid f) :=
  keeps_modifyRelationship_of fun _ t =>
    keepsFrom_putTable_names (Table.namesWithin_changeRelationship t rid hf)

end EditM

end SchemaDesign
