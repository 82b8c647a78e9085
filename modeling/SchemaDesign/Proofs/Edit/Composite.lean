import SchemaDesign.Proofs.Edit.Keys
import SchemaDesign.Operation

/-!
# Edits keep what their parts keep

An edit changes the snapshot only through a few parts: `modifyTable` and `putTable` with a
change of one table, and the cascades built of them. Everything else it does reads the session,
checks, mints ids or reports events, and leaves the snapshot as it is.

For each edit, one lemma here says, for every preorder `R` on snapshots, that the edit keeps `R`
when the parts that change the snapshot keep it. Each is proved once, by the way the edit is
built: bind by bind, branch by branch, and over the worklists by induction on the fuel. A fact
about snapshots is then proved of the parts only, and an edit is never taken apart again.
-/

namespace SchemaDesign

/-- The relationship as `dropMapping` leaves it: without its mappings from `fk` to `key`. -/
def Relationship.dropLink (r : Relationship) (fk key : Id) : Relationship :=
  let kept := r.columns.filter fun m => !(m.fkColumnId = fk && m.pkColumnId = key)
  { r with columns := renumber (fun m n => { m with seqNo := n }) kept }

/-- The holder as `dropMapping` leaves it before it looks at the holder column: the first
relationship with id `rid` without its mappings from `fk` to `key`, and dropped if none is left. -/
def Table.dropLink (t : Table) (rid fk key : Id) : Table :=
  { t with relationships :=
    (updateFirst (·.id = rid) (·.dropLink fk key) t.relationships).filter (!·.columns.isEmpty) }

namespace EditM

/-! ## Lookups -/

theorem reads_column (sid tid cid : Id) :
    Reads (fun c db => ∃ t, db.FindsTable sid tid t ∧ t.column? cid = some c)
      (column sid tid cid) := by
  intro st c st' h
  obtain ⟨rfl, s, t, hs, ht, hc⟩ := column_run h
  exact ⟨rfl, t, ⟨s, hs, ht⟩, hc⟩

theorem reads_index (sid tid iid : Id) :
    Reads (fun i db => ∃ t, db.FindsTable sid tid t ∧ t.index? iid = some i)
      (index sid tid iid) := by
  unfold index
  refine Reads.bind (reads_table _ _) fun t => ?_
  split
  · next i hi => exact Reads.pure fun _ ht => ⟨t, ht, hi⟩
  · exact Reads.throw _

theorem reads_constraint (sid tid kid : Id) :
    Reads (fun k db => ∃ t, db.FindsTable sid tid t ∧ t.constraint? kid = some k)
      (constraint sid tid kid) := by
  unfold constraint
  refine Reads.bind (reads_table _ _) fun t => ?_
  split
  · next k hk => exact Reads.pure fun _ ht => ⟨t, ht, hk⟩
  · exact Reads.throw _

/-- A step that changes no snapshot tells at least that much. -/
theorem Reads.of_keeps {α : Type} {x : EditM α} (hx : Keeps Eq x) : Reads (fun _ _ => True) x :=
  fun st a st' h => ⟨(hx st a st' h).symm, trivial⟩

theorem KeepsFrom.bind_returns {α β : Type} {P : Database → Prop} {R : Database → Database → Prop}
    {Q : α → Prop} {x : EditM α} {f : α → EditM β} (hx : Keeps Eq x) (hq : Returns Q x)
    (hf : ∀ a, Q a → KeepsFrom P R (f a)) : KeepsFrom P R (x >>= f) := by
  intro st b st'' hp h
  obtain ⟨a, st', h₁, h₂⟩ := run_bind_ok h
  have hdb : st.db = st'.db := hx st a st' h₁
  rw [hdb] at hp ⊢
  exact hf a (hq st a st' h₁) st' b st'' hp h₂

/-! ## Steps that only read

Each of these checks, looks up or computes from the session and changes no snapshot, so it keeps
every preorder. The proofs take the step apart bind by bind and case by case. -/

section Reads

variable {R : Database → Database → Prop} [IsPreorder Database R]

theorem keeps_checkSchemaName (name : String) (exclude : Option Id) :
    Keeps R (checkSchemaName name exclude) := by
  unfold checkSchemaName
  refine Keeps.bind keeps_config.of_eq fun _ => ?_
  dsimp only
  split
  · exact Keeps.throw_bind _ _
  · exact Keeps.bind keeps_database.of_eq fun _ => Keeps.ite (fun _ => Keeps.throw _) fun _ =>
      Keeps.pure _

/-- The name checks scoped to a schema. -/
theorem keeps_checkTableName (sid : Id) (name : String) (exclude : Option Id) :
    Keeps R (checkTableName sid name exclude) := by
  unfold checkTableName
  refine Keeps.bind keeps_config.of_eq fun _ => ?_
  dsimp only
  split
  · exact Keeps.throw_bind _ _
  · exact Keeps.bind (keeps_schema _).of_eq fun _ => Keeps.ite (fun _ => Keeps.throw _) fun _ =>
      Keeps.pure _

theorem keeps_checkIndexName (sid : Id) (name : String) (exclude : Option Id) :
    Keeps R (checkIndexName sid name exclude) := by
  unfold checkIndexName
  refine Keeps.bind keeps_config.of_eq fun _ => ?_
  dsimp only
  split
  · exact Keeps.throw_bind _ _
  · exact Keeps.bind (keeps_schema _).of_eq fun _ => Keeps.ite (fun _ => Keeps.throw _) fun _ =>
      Keeps.pure _

theorem keeps_checkConstraintName (sid : Id) (name : String) (exclude : Option Id) :
    Keeps R (checkConstraintName sid name exclude) := by
  unfold checkConstraintName
  refine Keeps.bind keeps_config.of_eq fun _ => ?_
  dsimp only
  split
  · exact Keeps.throw_bind _ _
  · exact Keeps.bind (keeps_schema _).of_eq fun _ => Keeps.ite (fun _ => Keeps.throw _) fun _ =>
      Keeps.pure _

/-- The name checks scoped to a table. -/
theorem keeps_checkColumnName (sid tid : Id) (name : String) (exclude : Option Id) :
    Keeps R (checkColumnName sid tid name exclude) := by
  unfold checkColumnName
  refine Keeps.bind keeps_config.of_eq fun _ => ?_
  dsimp only
  split
  · exact Keeps.throw_bind _ _
  · refine Keeps.ite (fun _ => Keeps.throw_bind _ _) fun _ => ?_
    exact Keeps.bind (keeps_table _ _).of_eq fun _ => Keeps.ite (fun _ => Keeps.throw _) fun _ =>
      Keeps.pure _

theorem keeps_checkRelationshipName (sid tid : Id) (name : String) (exclude : Option Id) :
    Keeps R (checkRelationshipName sid tid name exclude) := by
  unfold checkRelationshipName
  refine Keeps.bind keeps_config.of_eq fun _ => ?_
  dsimp only
  split
  · exact Keeps.throw_bind _ _
  · exact Keeps.bind (keeps_table _ _).of_eq fun _ => Keeps.ite (fun _ => Keeps.throw _) fun _ =>
      Keeps.pure _

theorem keeps_freshSpec (pk : Id) : Keeps R (freshSpec pk) :=
  Keeps.bind keeps_mint.of_eq fun _ => Keeps.bind keeps_mint.of_eq fun _ => Keeps.pure _

theorem keeps_notNullConstraint (tid cid : Id) (name : String) :
    Keeps R (notNullConstraint tid cid name) :=
  Keeps.bind keeps_mint.of_eq fun _ => Keeps.bind keeps_mint.of_eq fun _ => Keeps.pure _

theorem keeps_relationship (sid rid : Id) : Keeps R (relationship sid rid) := by
  unfold relationship
  refine Keeps.bind (keeps_schema sid).of_eq fun _ => ?_
  split
  · exact Keeps.pure _
  · exact Keeps.throw _

theorem keeps_provider (sid tid : Id) : Keeps R (provider sid tid) := by
  unfold provider
  refine Keeps.bind (keeps_schema sid).of_eq fun _ => ?_
  split
  · exact Keeps.pure _
  · exact Keeps.throw _

theorem keeps_constraint (sid tid kid : Id) : Keeps R (constraint sid tid kid) :=
  (reads_constraint sid tid kid).keeps.of_eq

theorem keeps_index (sid tid iid : Id) : Keeps R (index sid tid iid) :=
  (reads_index sid tid iid).keeps.of_eq

theorem keeps_ensureKeyColumnRemovable (sid tid cid : Id) :
    Keeps R (ensureKeyColumnRemovable sid tid cid) := by
  unfold ensureKeyColumnRemovable
  refine Keeps.bind (keeps_schema sid).of_eq fun _ => ?_
  refine Keeps.bind (keeps_table sid tid).of_eq fun _ => ?_
  split
  · exact Keeps.throw _
  · exact Keeps.pure _

theorem keeps_ensureNotSetNullTarget (sid tid cid : Id) :
    Keeps R (ensureNotSetNullTarget sid tid cid) := by
  unfold ensureNotSetNullTarget
  refine Keeps.bind (keeps_table sid tid).of_eq fun _ => ?_
  split
  · exact Keeps.throw _
  · exact Keeps.pure _

theorem keeps_ensureNullabilityAllowed (sid tid : Id) (kind : ConstraintKind) (cs : List Id) :
    Keeps R (ensureNullabilityAllowed sid tid kind cs) := by
  unfold ensureNullabilityAllowed
  split
  · exact Keeps.forM (keeps_ensureNotSetNullTarget sid tid) cs
  · exact Keeps.pure _

theorem keeps_indexColumns (sid tid : Id) (name : String) (ds : List IndexColumnDraft) :
    Keeps R (indexColumns sid tid name ds) := by
  unfold indexColumns
  refine Keeps.foldlM (fun _ d => ?_) _ _
  obtain ⟨d, n⟩ := d
  refine Keeps.bind (keeps_column _ _ _).of_eq fun _ =>
    Keeps.bind (keeps_ensureFreshId _ _).of_eq fun _ => ?_
  exact Keeps.ite (fun _ => Keeps.throw_bind _ _) fun _ => Keeps.pure _

theorem keeps_constraintColumns (sid tid : Id) (name : String) (ds : List ConstraintColumnDraft) :
    Keeps R (constraintColumns sid tid name ds) := by
  unfold constraintColumns
  refine Keeps.foldlM (fun _ d => ?_) _ _
  obtain ⟨d, n⟩ := d
  refine Keeps.bind (keeps_column _ _ _).of_eq fun _ =>
    Keeps.bind (keeps_ensureFreshId _ _).of_eq fun _ => ?_
  exact Keeps.ite (fun _ => Keeps.throw_bind _ _) fun _ => Keeps.pure _

/-- Checking a stored relationship as if it were new. -/
theorem keeps_revalidateRelationship (sid rid : Id) : Keeps R (revalidateRelationship sid rid) := by
  unfold revalidateRelationship
  refine Keeps.bind (keeps_relationship _ _) fun _ =>
    Keeps.bind (keeps_checkRelationshipName _ _ _ _) fun _ => Keeps.bind (keeps_provider _ _) fun _ => ?_
  refine Keeps.ite (fun _ => Keeps.throw_bind _ _) fun _ => Keeps.bind (keeps_check _).of_eq fun _ => ?_
  dsimp only
  refine Keeps.ite (fun _ => Keeps.bind (keeps_schema _).of_eq fun _ =>
    Keeps.bind (keeps_check _).of_eq fun _ => ?_) fun _ => ?_
  all_goals
    refine Keeps.ite (fun _ => ?_) fun _ => Keeps.pure _
    split
    · exact Keeps.throw _
    · exact Keeps.pure _

end Reads

variable {R : Database → Database → Prop} [IsPreorder Database R] {sid : Id}

/-! ## Key propagation -/

section Propagation

/-- Mapping a provider column adds the holder column when it is missing, then the mapping. -/
theorem keeps_attachForeignKey_of {hid rid pid : Id} {spec : FkSpec}
    (hcolumn : ∀ c : Column, Keeps R (modifyTable sid hid fun t =>
      { t with columns := t.columns ++ [c] }.resequenceColumns))
    (hattach : Keeps R (modifyTable sid hid fun t =>
      { t with
        relationships := updateFirst (·.id = rid)
          (fun r => { r with columns := r.columns ++ [⟨spec.mappingId, spec.fkColumnId,
            spec.pkColumnId, r.columns.length + 1⟩] })
          t.relationships })) :
    Keeps R (attachForeignKey sid hid rid pid spec) := by
  unfold attachForeignKey
  refine Keeps.bind (keeps_table _ _).of_eq fun _ => ?_
  dsimp only
  split
  · refine Keeps.bind (keeps_table _ _).of_eq fun _ => ?_
    refine Keeps.ite (fun _ => Keeps.bind (keeps_ensureFreshId _ _).of_eq fun _ => ?_) fun _ => ?_
    -- a missing holder column is named, by the spec or after the provider column, then added
    on_goal 1 =>
      split
      on_goal 1 => refine Keeps.bind (keeps_checkColumnName _ _ _ _) fun _ => ?_
      on_goal 2 => refine Keeps.bind keeps_config.of_eq fun _ => ?_
      all_goals refine Keeps.bind (Keeps.pure _) fun _ => Keeps.bind (hcolumn _) fun _ => ?_
    all_goals
      refine Keeps.bind (keeps_ensureFreshId _ _).of_eq fun _ =>
        Keeps.bind (keeps_table _ _).of_eq fun _ => ?_
      exact Keeps.ite (fun _ => Keeps.throw_bind _ _) fun _ => Keeps.bind hattach fun _ => Keeps.pure _
  · exact Keeps.throw _

theorem keeps_propagateKey_of
    (hattach : ∀ hid rid pid spec, Keeps R (attachForeignKey sid hid rid pid spec))
    (pid hid rid : Id) (added : List Id) (key : Id) :
    Keeps R (propagateKey sid pid hid rid added key) := by
  unfold propagateKey
  refine Keeps.bind (keeps_table _ _).of_eq fun _ => ?_
  exact Keeps.ite (fun _ => Keeps.pure _) fun _ =>
    Keeps.bind (keeps_freshSpec _) fun _ => Keeps.bind (hattach _ _ _ _) fun _ => Keeps.pure _

theorem keeps_propagateDependent_of
    (hattach : ∀ hid rid pid spec, Keeps R (attachForeignKey sid hid rid pid spec))
    (hadd : ∀ tid cs, Keeps R (addToPrimaryKey sid tid cs)) (pid : Id) (keys : List Id)
    (acc : List (Id × List Id) × List (Id × Id) × Nat) (dependent : Id × Id) :
    Keeps R (propagateDependent sid pid keys acc dependent) := by
  obtain ⟨hid, rid⟩ := dependent
  obtain ⟨rest, visited, count⟩ := acc
  unfold propagateDependent propagateInto
  refine Keeps.bind (Keeps.foldlM (keeps_propagateKey_of hattach _ _ _) _ _) fun _ => ?_
  refine Keeps.ite (fun _ => Keeps.pure _) fun _ => ?_
  exact Keeps.bind (hadd _ _) fun _ => Keeps.bind (keeps_emit _).of_eq fun _ => Keeps.pure _

/-- Key propagation, round after round: by induction on the fuel. -/
theorem keeps_propagateLoop_of_dependent
    (hdep : ∀ pid keys acc dependent, Keeps R (propagateDependent sid pid keys acc dependent)) :
    ∀ (fuel : Nat) (work : List (Id × List Id))
    (visited : List (Id × Id)) (count : Nat), Keeps R (propagateLoop sid fuel work visited count)
  | _, [], _, _ => by
    rw [propagateLoop]
    exact Keeps.pure _
  | 0, (_, _) :: _, _, _ => by
    rw [propagateLoop]
    exact Keeps.bind (keeps_schema _).of_eq fun _ => Keeps.throw _
  | fuel + 1, (p, keys) :: rest, visited, count => by
    rw [propagateLoop]
    refine Keeps.bind (keeps_schema _).of_eq fun _ =>
      Keeps.bind (Keeps.foldlM (hdep _ _) _ _) fun acc => ?_
    obtain ⟨rest, visited, count⟩ := acc
    exact keeps_propagateLoop_of_dependent hdep fuel rest visited count

theorem keeps_propagateKeys_of_dependent
    (hdep : ∀ pid keys acc dependent, Keeps R (propagateDependent sid pid keys acc dependent))
    (pid : Id) (keys : List Id) : Keeps R (propagateKeys sid pid keys) := by
  unfold propagateKeys
  refine Keeps.bind (keeps_schema _).of_eq fun _ =>
    Keeps.bind (keeps_propagateLoop_of_dependent hdep _ _ _ _) fun _ => ?_
  exact Keeps.ite (fun _ => Keeps.bind (keeps_emit _).of_eq fun _ => Keeps.pure _) fun _ =>
    Keeps.pure _

theorem keeps_propagateKeys_of
    (hattach : ∀ hid rid pid spec, Keeps R (attachForeignKey sid hid rid pid spec))
    (hadd : ∀ tid cs, Keeps R (addToPrimaryKey sid tid cs)) (pid : Id) (keys : List Id) :
    Keeps R (propagateKeys sid pid keys) :=
  keeps_propagateKeys_of_dependent (keeps_propagateDependent_of hattach hadd) pid keys

/-- Completing an identifying relationship maps the provider's key, grows the holder's key and
propagates it. -/
theorem keeps_completeIdentifying_of
    (hattach : ∀ hid rid pid spec, Keeps R (attachForeignKey sid hid rid pid spec))
    (hadd : ∀ tid cs, Keeps R (addToPrimaryKey sid tid cs)) (rid : Id) :
    Keeps R (completeIdentifying sid rid) := by
  unfold completeIdentifying
  refine Keeps.bind (keeps_relationship _ _) fun _ => Keeps.bind (keeps_provider _ _) fun _ => ?_
  refine Keeps.bind (Keeps.forM (fun _ => ?_) _) fun _ => ?_
  · exact Keeps.bind (keeps_freshSpec _) fun _ => Keeps.bind (hattach _ _ _ _) fun _ => Keeps.pure _
  refine Keeps.bind (keeps_relationship _ _) fun _ => Keeps.bind (hadd _ _) fun _ => ?_
  exact Keeps.ite (fun _ => Keeps.bind (keeps_propagateKeys_of hattach hadd _ _) fun _ =>
    Keeps.pure _) fun _ => Keeps.pure _

end Propagation

/-! ## Removal and release -/

section Removal

/-- Dropping a mapping puts back the holder read before with the link dropped, and with the holder
column detached once nothing maps it. -/
theorem keeps_dropMapping_of {hid rid fk key : Id}
    (hdrop : ∀ t, KeepsFrom (Database.FindsTable sid hid t) R
      (putTable sid hid (t.dropLink rid fk key)))
    (hdetach : ∀ t, KeepsFrom (Database.FindsTable sid hid t) R
      (putTable sid hid ((t.dropLink rid fk key).detachColumn fk).1)) :
    Keeps R (dropMapping sid hid rid fk key) := by
  unfold dropMapping
  refine Keeps.bind_reads (reads_table _ _) fun t => ?_
  dsimp only
  split
  · exact (hdrop t).bind fun _ => Keeps.pure _
  · refine (hdetach t).bind fun _ => ?_
    exact Keeps.ite (fun _ => Keeps.bind (keeps_emit _).of_eq fun _ => Keeps.pure _)
      fun _ => Keeps.pure _

/-- Key removal, round after round: by induction on the fuel. -/
theorem keeps_removalLoop_of (hdrop : ∀ hid rid fk key, Keeps R (dropMapping sid hid rid fk key)) :
    ∀ (fuel : Nat) (work : List (Id × Id × Bool))
    (visited : List (Id × Id)) (count : Nat), Keeps R (removalLoop sid fuel work visited count)
  | 0, _, _, _ => by
    rw [removalLoop]
    exact Keeps.pure _
  | _ + 1, [], _, _ => by
    rw [removalLoop]
    exact Keeps.pure _
  | fuel + 1, (p, key, survives) :: rest, visited, count => by
    rw [removalLoop]
    refine Keeps.bind (keeps_schema _).of_eq fun _ =>
      Keeps.bind (Keeps.foldlM (fun acc dependent => ?_) _ _) fun acc => ?_
    · obtain ⟨rest, visited, count⟩ := acc
      obtain ⟨hid, rid, fk⟩ := dependent
      exact Keeps.bind (hdrop _ _ _ _) fun _ => Keeps.ite (fun _ => Keeps.pure _) fun _ =>
        Keeps.pure _
    · obtain ⟨rest, visited, count⟩ := acc
      exact keeps_removalLoop_of hdrop fuel rest visited count

theorem keeps_cascadeKeyRemoval_of
    (hdrop : ∀ hid rid fk key, Keeps R (dropMapping sid hid rid fk key))
    (seeds : List (Id × Id)) (survive : Bool) :
    Keeps R (cascadeKeyRemoval sid seeds survive) := by
  unfold cascadeKeyRemoval
  refine Keeps.bind (keeps_schema _).of_eq fun _ =>
    Keeps.bind (keeps_removalLoop_of hdrop _ _ _ _) fun _ => ?_
  exact Keeps.ite (fun _ => Keeps.bind (keeps_emit _).of_eq fun _ => Keeps.pure _) fun _ =>
    Keeps.pure _

theorem keeps_releaseFkColumns_of
    (hdrop : ∀ hid rid fk key, Keeps R (dropMapping sid hid rid fk key))
    (hdetach : ∀ hid (cs : List Id),
      Keeps R (modifyTable sid hid fun t => cs.foldl (fun t c => (t.detachColumn c).1) t))
    (hid : Id) (fks : List Id) :
    Keeps R (releaseFkColumns sid hid fks) := by
  unfold releaseFkColumns
  refine Keeps.bind (keeps_table _ _).of_eq fun _ => ?_
  exact Keeps.ite (fun _ => Keeps.bind (keeps_cascadeKeyRemoval_of hdrop _ _) fun _ =>
    hdetach _ _) fun _ => Keeps.pure _

/-- Deleting a relationship puts back its holder without it, then releases its columns. -/
theorem keeps_deleteRelationship_of
    (hdrop : ∀ hid rid fk key, Keeps R (dropMapping sid hid rid fk key))
    (hdetach : ∀ hid (cs : List Id),
      Keeps R (modifyTable sid hid fun t => cs.foldl (fun t c => (t.detachColumn c).1) t))
    (herase : ∀ hid (t : Table) rid, KeepsFrom (Database.FindsTable sid hid t) R
      (putTable sid hid { t with relationships := t.relationships.eraseP (·.id = rid) }))
    (rid : Id) : Keeps R (deleteRelationship sid rid) := by
  unfold deleteRelationship
  refine Keeps.bind (keeps_relationship _ _) fun found => Keeps.bind_reads (reads_table _ _) fun t => ?_
  split
  · exact (Keeps.pure _).keepsFrom
  · refine (herase _ _ _).bind fun _ => Keeps.bind (keeps_emit _).of_eq fun _ => ?_
    exact keeps_releaseFkColumns_of hdrop hdetach _ _

end Removal

/-! ## Operations

Each operation below is built of reads and checks around a few changes; the lemma names the
changes. Where a change is made to what a lookup found, its hypothesis may use the lookup. -/

section Operations

variable {tid : Id}

theorem keeps_deleteColumn_of {cid : Id}
    (hcascade : ∀ seeds survive, Keeps R (cascadeKeyRemoval sid seeds survive))
    (hdetach : Keeps R (modifyTable sid tid fun t => (t.detachColumn cid).1)) :
    Keeps R (deleteColumn sid tid cid) := by
  unfold deleteColumn
  refine Keeps.bind (keeps_column _ _ _).of_eq fun _ => Keeps.bind (keeps_table _ _).of_eq fun _ => ?_
  refine Keeps.ite (fun _ => Keeps.throw_bind _ _) fun _ => ?_
  exact Keeps.bind (keeps_ensureKeyColumnRemovable _ _ _) fun _ =>
    Keeps.bind (hcascade _ _) fun _ => hdetach

/-- Creating a column places it, may add its NOT NULL constraint, and may put it into the key
and propagate it. -/
theorem keeps_createColumn_of {d : ColumnDraft}
    (hplace : ∀ position, Keeps R (modifyTable sid tid fun t =>
      { t with
        columns := insertAt t.columns (position - 1) ⟨d.id, tid, d.name, position, d.dataType,
          d.lengthScale, d.autoIncrement, d.charset, d.collation, d.comment⟩ }.resequenceColumns))
    (hnotNull : ∀ k, Keeps R (modifyTable sid tid fun t => { t with constraints := t.constraints ++ [k] }))
    (hadd : Keeps R (addToPrimaryKey sid tid [d.id])) (hpropagate : Keeps R (propagateKeys sid tid [d.id])) :
    Keeps R (createColumn sid tid d) := by
  unfold createColumn
  refine Keeps.bind (keeps_schema _).of_eq fun _ => Keeps.bind (keeps_checkColumnName _ _ _ _) fun _ =>
    Keeps.bind (keeps_ensureFreshId _ _).of_eq fun _ => Keeps.bind (keeps_check _).of_eq fun _ => ?_
  refine Keeps.bind (keeps_table _ _).of_eq fun _ => ?_
  dsimp only
  refine Keeps.ite (fun _ => Keeps.bind (keeps_check _).of_eq fun _ => ?_) fun _ => ?_
  all_goals
    refine Keeps.ite (fun _ => Keeps.throw_bind _ _) fun _ => ?_
    refine Keeps.ite (fun _ => Keeps.bind (Keeps.pure _) fun _ => ?_) fun _ =>
      Keeps.bind (Keeps.map _ (keeps_freshConstraintName _ _)) fun _ => ?_
  all_goals
    refine Keeps.bind (hplace _) fun _ => ?_
    split
    on_goal 1 =>
      refine Keeps.bind (keeps_notNullConstraint _ _ _) fun _ => Keeps.bind (hnotNull _) fun _ => ?_
  all_goals
    exact Keeps.ite (fun _ => Keeps.bind hadd fun _ => Keeps.bind hpropagate fun _ => Keeps.pure _)
      fun _ => Keeps.pure _

/-- Moving a column puts back the table read with the column reinserted. -/
theorem keeps_changeColumnPosition_of {cid : Id} {position : Nat}
    (hput : ∀ t c, KeepsFrom (Database.FindsTable sid tid t) R (putTable sid tid
      { t with columns := insertAt (t.columns.eraseP (·.id = cid)) (position - 1) c }.resequenceColumns)) :
    Keeps R (changeColumnPosition sid tid cid position) := by
  unfold changeColumnPosition
  refine Keeps.bind (keeps_column _ _ _).of_eq fun _ => Keeps.bind_reads (reads_table _ _) fun t => ?_
  refine KeepsFrom.ite (fun _ => (Keeps.throw_bind _ _).keepsFrom) fun _ => ?_
  split
  · exact (Keeps.pure _).keepsFrom
  · exact hput _ _

theorem keeps_changeColumnType_of {cid : Id} {dataType : Option String} {ls : Option LengthScale}
    (hupdate : Keeps R (modifyTable sid tid
      (Table.updateColumn cid fun c => { c with dataType, lengthScale := ls })))
    (hmirror : Keeps R (mirrorTypeChange sid tid cid dataType ls)) :
    Keeps R (changeColumnType sid tid cid dataType ls) := by
  unfold changeColumnType
  refine Keeps.bind (keeps_schema _).of_eq fun _ => Keeps.bind (keeps_column _ _ _).of_eq fun _ => ?_
  refine Keeps.bind (keeps_check _).of_eq fun _ => ?_
  refine Keeps.ite (fun _ => Keeps.throw_bind _ _) fun _ => ?_
  refine Keeps.bind (keeps_schema _).of_eq fun _ => Keeps.bind (keeps_table _ _).of_eq fun _ => ?_
  dsimp only
  split
  · exact Keeps.throw_bind _ _
  · exact Keeps.bind hupdate fun _ => hmirror

/-- Making a column nullable drops its NOT_NULL constraints; making it non-nullable adds one
unless it has one. -/
theorem keeps_changeColumnNullable_of {cid : Id} {nullable : Bool}
    (hdrop : nullable = true → Keeps R (modifyTable sid tid fun t =>
      { t with
        constraints := t.constraints.filter fun k => !(k.kind = .notNull && k.containsColumn cid) }))
    (hadd : nullable = false → ∀ tableName columnName,
      Keeps R (addNotNull sid tid cid tableName columnName)) :
    Keeps R (changeColumnNullable sid tid cid nullable) := by
  unfold changeColumnNullable
  refine Keeps.bind (keeps_schema _).of_eq fun _ => Keeps.bind (keeps_column _ _ _).of_eq fun _ => ?_
  refine Keeps.bind (keeps_checkColumnName _ _ _ _) fun _ =>
    Keeps.bind (keeps_check _).of_eq fun _ => ?_
  refine Keeps.bind (keeps_table _ _).of_eq fun t => ?_
  dsimp only
  refine Keeps.ite (fun _ => Keeps.bind (keeps_check _).of_eq fun _ => ?_) fun _ => ?_
  all_goals
    refine Keeps.ite (fun hb => Keeps.ite (fun _ => Keeps.throw_bind _ _) fun _ => hdrop hb)
      fun hb => ?_
    refine Keeps.bind (keeps_ensureNotSetNullTarget _ _ _) fun _ => ?_
    exact Keeps.ite (fun _ => hadd (by simpa using hb) _ _) fun _ => Keeps.pure _

theorem keeps_changeColumnAutoIncrement_of {cid : Id} {enabled : Bool}
    (hupdate : Keeps R (modifyTable sid tid
      (Table.updateColumn cid fun c => { c with isAutoIncrement := enabled }))) :
    Keeps R (changeColumnAutoIncrement sid tid cid enabled) := by
  unfold changeColumnAutoIncrement
  refine Keeps.bind (keeps_schema _).of_eq fun _ => Keeps.bind (keeps_column _ _ _).of_eq fun _ => ?_
  dsimp only
  refine Keeps.ite (fun _ => ?_) fun _ => hupdate
  exact Keeps.bind (keeps_table _ _).of_eq fun _ => Keeps.bind (keeps_check _).of_eq fun _ => hupdate

/-- Creating an index appends it, with the entries its drafts check out to, under a name the
check passed. -/
theorem keeps_createIndex_of {d : IndexDraft} {P : Database → Prop} {Q : List IndexColumn → Prop}
    (hname : Reads (fun _ => P) (checkIndexName sid d.name none))
    (hcolumns : Returns Q (indexColumns sid tid d.name d.columns))
    (happend : ∀ columns, Q columns → KeepsFrom P R (modifyTable sid tid fun t =>
      { t with indexes := t.indexes ++ [⟨d.id, tid, d.name, d.indexType, columns⟩] })) :
    Keeps R (createIndex sid tid d) := by
  unfold createIndex
  refine Keeps.bind (keeps_schema _).of_eq fun _ => Keeps.bind (keeps_table _ _).of_eq fun _ =>
    Keeps.bind_reads hname fun _ => KeepsFrom.bind_eq (keeps_ensureFreshId _ _) fun _ => ?_
  refine KeepsFrom.ite (fun _ => (Keeps.throw_bind _ _).keepsFrom) fun _ => ?_
  refine KeepsFrom.ite (fun _ => (Keeps.throw_bind _ _).keepsFrom) fun _ => ?_
  refine KeepsFrom.bind_returns (keeps_indexColumns _ _ _ _) hcolumns fun _ hq =>
    KeepsFrom.bind (happend _ hq) fun _ => ?_
  exact Keeps.bind (keeps_table _ _).of_eq fun _ => (keeps_check _).of_eq

theorem keeps_addColumnToIndex_of {iid : Id} {d : IndexColumnDraft}
    (hupdate : Keeps R (modifyTable sid tid (Table.updateIndex iid fun i =>
      { i with columns := i.columns ++ [⟨d.id, d.columnId, i.columns.length + 1, d.sortDir⟩] }))) :
    Keeps R (addColumnToIndex sid tid iid d) := by
  unfold addColumnToIndex
  refine Keeps.bind (keeps_column _ _ _).of_eq fun _ =>
    Keeps.bind (keeps_ensureFreshId _ _).of_eq fun _ => ?_
  refine Keeps.bind (keeps_index _ _ _) fun _ => ?_
  refine Keeps.ite (fun _ => Keeps.throw_bind _ _) fun _ => ?_
  exact Keeps.bind hupdate fun _ => Keeps.bind (keeps_table _ _).of_eq fun _ => (keeps_check _).of_eq

/-- Removing an entry renumbers what is left of the index read, or drops the emptied index. -/
theorem keeps_removeColumnFromIndex_of {iid eid : Id}
    (hdrop : Keeps R (modifyTable sid tid fun t =>
      { t with indexes := t.indexes.filter (·.id ≠ iid) }))
    (hupdate : ∀ i : Index, KeepsFrom (fun db => ∃ t, db.FindsTable sid tid t ∧ t.index? iid = some i)
      R (modifyTable sid tid (Table.updateIndex iid fun j =>
        { j with
          columns := renumber (fun c n => { c with seqNo := n }) (i.columns.filter (·.id ≠ eid)) }))) :
    Keeps R (removeColumnFromIndex sid tid iid eid) := by
  unfold removeColumnFromIndex
  refine Keeps.bind_reads (reads_index _ _ _) fun i => ?_
  dsimp only
  refine KeepsFrom.ite (fun _ => (Keeps.throw_bind _ _).keepsFrom) fun _ => ?_
  refine KeepsFrom.ite (fun _ => hdrop.keepsFrom) fun _ => ?_
  exact (hupdate i).bind fun _ => Keeps.bind (keeps_table _ _).of_eq fun _ => (keeps_check _).of_eq

theorem keeps_changeIndexColumnSortDir_of {iid eid : Id} {sortDir : SortDir}
    (hupdate : Keeps R (modifyTable sid tid (Table.updateIndex iid fun i =>
      { i with columns := updateFirst (·.id = eid) (fun c => { c with sortDir }) i.columns }))) :
    Keeps R (changeIndexColumnSortDir sid tid iid eid sortDir) := by
  unfold changeIndexColumnSortDir
  refine Keeps.bind (keeps_index _ _ _) fun _ => ?_
  refine Keeps.ite (fun _ => Keeps.throw_bind _ _) fun _ => ?_
  exact Keeps.bind hupdate fun _ => Keeps.bind (keeps_table _ _).of_eq fun _ => (keeps_check _).of_eq

/-- Creating a constraint appends it; a new primary key propagates. -/
theorem keeps_createConstraint_of {d : ConstraintDraft} {P : Database → Prop}
    {Q : List ConstraintColumn → Prop}
    (hname : Reads (fun _ => P) (checkConstraintName sid d.name none))
    (hcolumns : Returns Q (constraintColumns sid tid d.name d.columns))
    (happend : ∀ columns, Q columns → KeepsFrom P R (modifyTable sid tid fun t =>
      { t with
        constraints := t.constraints ++ [⟨d.id, tid, d.name, d.kind,
          if d.kind = .check then d.checkExpr else none,
          if d.kind = .defaultValue then d.defaultExpr else none, columns⟩] }))
    (hpropagate : ∀ keys, Keeps R (propagateKeys sid tid keys)) :
    Keeps R (createConstraint sid tid d) := by
  unfold createConstraint
  refine Keeps.bind (keeps_table _ _).of_eq fun _ => Keeps.bind_reads hname fun _ =>
    KeepsFrom.bind_eq (keeps_ensureFreshId _ _) fun _ => ?_
  refine KeepsFrom.ite (fun _ => (Keeps.throw_bind _ _).keepsFrom) fun _ => ?_
  refine KeepsFrom.ite (fun _ => (Keeps.throw_bind _ _).keepsFrom) fun _ => ?_
  refine KeepsFrom.ite (fun _ => (Keeps.throw_bind _ _).keepsFrom) fun _ => ?_
  refine KeepsFrom.ite (fun _ => (Keeps.throw_bind _ _).keepsFrom) fun _ => ?_
  refine KeepsFrom.bind_returns (keeps_constraintColumns _ _ _ _) hcolumns fun _ hq =>
    KeepsFrom.bind_eq (keeps_ensureNullabilityAllowed _ _ _ _) fun _ =>
      KeepsFrom.bind (happend _ hq) fun _ => ?_
  refine Keeps.bind (keeps_table _ _).of_eq fun _ => Keeps.bind (keeps_check _).of_eq fun _ => ?_
  exact Keeps.ite (fun _ => Keeps.bind (hpropagate _) fun _ => Keeps.pure _) fun _ => Keeps.pure _

/-- Deleting a primary key takes along what was derived from its columns. -/
theorem keeps_deleteConstraint_of {kid : Id}
    (hfilter : Keeps R (modifyTable sid tid fun t =>
      { t with constraints := t.constraints.filter (·.id ≠ kid) }))
    (hcascade : ∀ seeds survive, Keeps R (cascadeKeyRemoval sid seeds survive)) :
    Keeps R (deleteConstraint sid tid kid) := by
  unfold deleteConstraint
  refine Keeps.bind (keeps_constraint _ _ _) fun k => ?_
  dsimp only
  have hrest : Keeps R (modifyTable sid tid (fun t =>
      { t with constraints := t.constraints.filter (·.id ≠ kid) }) >>= fun _ =>
      if k.isPrimaryKey = true then
        cascadeKeyRemoval sid (k.columnIds.map (tid, ·)) true >>= fun _ => pure ()
      else pure ()) :=
    Keeps.bind hfilter fun _ =>
      Keeps.ite (fun _ => Keeps.bind (hcascade _ _) fun _ => Keeps.pure _) fun _ => Keeps.pure _
  refine Keeps.ite (fun _ => ?_) fun _ => hrest
  exact Keeps.bind (Keeps.forM (keeps_ensureKeyColumnRemovable _ _) _) fun _ => hrest

theorem keeps_addColumnToConstraint_of {kid : Id} {d : ConstraintColumnDraft}
    (hupdate : Keeps R (modifyTable sid tid (Table.updateConstraint kid fun k =>
      { k with columns := k.columns ++ [⟨d.id, d.columnId, k.columns.length + 1⟩] })))
    (hpropagate : ∀ keys, Keeps R (propagateKeys sid tid keys)) :
    Keeps R (addColumnToConstraint sid tid kid d) := by
  unfold addColumnToConstraint
  refine Keeps.bind (keeps_column _ _ _).of_eq fun _ =>
    Keeps.bind (keeps_ensureFreshId _ _).of_eq fun _ => ?_
  refine Keeps.bind (keeps_constraint _ _ _) fun _ =>
    Keeps.bind (keeps_ensureNullabilityAllowed _ _ _ _) fun _ => ?_
  refine Keeps.ite (fun _ => Keeps.throw_bind _ _) fun _ => ?_
  refine Keeps.ite (fun _ => Keeps.throw_bind _ _) fun _ => ?_
  refine Keeps.bind hupdate fun _ => Keeps.bind (keeps_table _ _).of_eq fun _ =>
    Keeps.bind (keeps_check _).of_eq fun _ => ?_
  exact Keeps.ite (fun _ => Keeps.bind (hpropagate _) fun _ => Keeps.pure _) fun _ => Keeps.pure _

/-- Removing an entry renumbers what is left of the constraint read, or drops the emptied
constraint; a key entry takes along what was derived from its column. -/
theorem keeps_removeColumnFromConstraint_of {kid eid : Id}
    (hfilter : Keeps R (modifyTable sid tid fun t =>
      { t with constraints := t.constraints.filter (·.id ≠ kid) }))
    (hupdate : ∀ k : Constraint,
      KeepsFrom (fun db => ∃ t, db.FindsTable sid tid t ∧ t.constraint? kid = some k)
      R (modifyTable sid tid (Table.updateConstraint kid fun k' =>
        { k' with
          columns := renumber (fun c n => { c with seqNo := n }) (k.columns.filter (·.id ≠ eid)) })))
    (hcascade : ∀ seeds survive, Keeps R (cascadeKeyRemoval sid seeds survive)) :
    Keeps R (removeColumnFromConstraint sid tid kid eid) := by
  unfold removeColumnFromConstraint
  refine Keeps.bind_reads (reads_constraint _ _ _) fun k => ?_
  dsimp only
  split
  · refine KeepsFrom.ite (fun _ => KeepsFrom.bind_eq (keeps_ensureKeyColumnRemovable _ _ _)
      fun _ => ?_) fun _ => ?_
    -- the key check's join point leaves the same remainder on both branches
    all_goals
      refine KeepsFrom.ite (fun _ => KeepsFrom.bind hfilter.keepsFrom fun _ => ?_) fun _ =>
        KeepsFrom.bind (hupdate k) fun _ => Keeps.bind (keeps_table _ _).of_eq fun _ =>
          Keeps.bind (keeps_check _).of_eq fun _ => ?_
    all_goals
      exact Keeps.ite (fun _ => Keeps.bind (hcascade _ _) fun _ => Keeps.pure _) fun _ =>
        Keeps.pure _
  · exact (Keeps.throw _).keepsFrom

/-- Creating a relationship appends it to its holder without mappings, maps the drafts and, for
an identifying one, completes it. -/
theorem keeps_createRelationship_of {d : RelationshipDraft} {P : Database → Prop}
    (hname : Reads (fun _ => P) (checkRelationshipName sid d.fkTableId d.name none))
    (happend : KeepsFrom P R (modifyTable sid d.fkTableId fun t =>
      { t with
        relationships := t.relationships ++ [⟨d.id, d.fkTableId, d.pkTableId, d.name, d.kind,
          d.cardinality, d.onDelete, d.onUpdate, []⟩] }))
    (hattach : ∀ spec, Keeps R (attachForeignKey sid d.fkTableId d.id d.pkTableId spec))
    (hcomplete : Keeps R (completeIdentifying sid d.id)) :
    Keeps R (createRelationship sid d) := by
  unfold createRelationship
  refine Keeps.bind (keeps_table _ _).of_eq fun _ => Keeps.bind (keeps_provider _ _) fun _ =>
    Keeps.bind_reads hname fun _ => KeepsFrom.bind_eq (keeps_ensureFreshId _ _) fun _ => ?_
  refine KeepsFrom.ite (fun _ => (Keeps.throw_bind _ _).keepsFrom) fun _ =>
    KeepsFrom.bind_eq (keeps_check _) fun _ => ?_
  dsimp only
  refine KeepsFrom.ite (fun _ => KeepsFrom.bind_eq (keeps_schema _) fun _ =>
    KeepsFrom.bind_eq (keeps_check _) fun _ => ?_) fun _ => ?_
  all_goals
    refine KeepsFrom.bind happend fun _ =>
      Keeps.bind (Keeps.forM (fun _ => Keeps.bind (hattach _) fun _ => Keeps.pure _) _) fun _ => ?_
    exact Keeps.ite (fun _ => Keeps.bind hcomplete fun _ => keeps_revalidateRelationship _ _)
      fun _ => keeps_revalidateRelationship _ _

/-- Making a relationship identifying completes it. -/
theorem keeps_makeIdentifying_of {rid : Id}
    (hmodify : Keeps R (modifyRelationship sid rid fun r => { r with kind := .identifying }))
    (hcomplete : Keeps R (completeIdentifying sid rid)) :
    Keeps R (changeRelationshipKind sid rid .identifying) := by
  unfold changeRelationshipKind
  refine Keeps.bind (keeps_relationship _ _) fun _ => ?_
  dsimp only
  refine Keeps.ite (fun _ => Keeps.pure _) fun _ => ?_
  refine Keeps.bind (keeps_schema _).of_eq fun _ => Keeps.bind (keeps_check _).of_eq fun _ => ?_
  exact Keeps.bind hmodify fun _ => Keeps.bind hcomplete fun _ => keeps_revalidateRelationship _ _

/-- Making a relationship non-identifying takes out of the holder's key what only it kept there,
with what was derived from it. -/
theorem keeps_makeNonIdentifying_of {rid : Id}
    (hmodify : Keeps R (modifyRelationship sid rid fun r => { r with kind := .nonIdentifying }))
    (hremove : ∀ hid cs, Keeps R (removeFromPrimaryKey sid hid cs))
    (hcascade : ∀ seeds survive, Keeps R (cascadeKeyRemoval sid seeds survive)) :
    Keeps R (changeRelationshipKind sid rid .nonIdentifying) := by
  unfold changeRelationshipKind
  refine Keeps.bind (keeps_relationship _ _) fun _ => ?_
  dsimp only
  refine Keeps.ite (fun _ => Keeps.pure _) fun _ => ?_
  exact Keeps.bind hmodify fun _ => Keeps.bind (hremove _ _) fun _ =>
    Keeps.bind (hcascade _ _) fun _ => keeps_revalidateRelationship _ _

/-- Mapping one more provider column; on an identifying relationship the holder column joins the
holder's key and propagates. -/
theorem keeps_addColumnToRelationship_of {rid : Id} {m : MappingDraft}
    (hattach : ∀ hid pid, Keeps R (attachForeignKey sid hid rid pid m.spec))
    (hadd : ∀ hid cs, Keeps R (addToPrimaryKey sid hid cs))
    (hpropagate : ∀ hid keys, Keeps R (propagateKeys sid hid keys)) :
    Keeps R (addColumnToRelationship sid rid m) := by
  unfold addColumnToRelationship
  refine Keeps.bind (keeps_relationship _ _) fun _ => Keeps.bind (keeps_provider _ _) fun _ => ?_
  dsimp only
  split
  · refine Keeps.ite (fun _ => Keeps.throw_bind _ _) fun _ => ?_
    refine Keeps.ite (fun _ => Keeps.throw_bind _ _) fun _ => ?_
    split
    on_goal 1 => refine Keeps.ite (fun _ => Keeps.throw_bind _ _) fun _ => ?_
    all_goals refine Keeps.bind (hattach _ _) fun _ => Keeps.bind (keeps_table _ _).of_eq fun _ => ?_
    all_goals
      exact Keeps.ite (fun _ => Keeps.bind (hadd _ _) fun _ => Keeps.bind (hpropagate _ _) fun _ =>
        keeps_revalidateRelationship _ _) fun _ => keeps_revalidateRelationship _ _
  · exact Keeps.throw _

/-- Removing a mapping strips it from its relationship, drops an emptied relationship and
releases the holder column. -/
theorem keeps_removeColumnFromRelationship_of {rid mid : Id}
    (hstrip : ∀ hid, Keeps R (modifyTable sid hid fun t =>
      let t := t.updateRelationships rid fun r =>
        { r with
          columns := renumber (fun m n => { m with seqNo := n }) (r.columns.filter (·.id ≠ mid)) }
      { t with relationships := t.relationships.filter (!·.columns.isEmpty) }))
    (hrelease : ∀ hid fks, Keeps R (releaseFkColumns sid hid fks)) :
    Keeps R (removeColumnFromRelationship sid rid mid) := by
  unfold removeColumnFromRelationship
  refine Keeps.bind (keeps_relationship _ _) fun _ => ?_
  dsimp only
  split
  · have hrest := fun hid fk => Keeps.bind (hstrip hid) fun _ => hrelease hid [fk]
    refine Keeps.ite (fun _ => Keeps.bind (keeps_provider _ _) fun _ => ?_) fun _ => hrest _ _
    exact Keeps.ite (fun _ => Keeps.throw_bind _ _) fun _ => hrest _ _
  · exact Keeps.throw _

end Operations

/-! ## Changes in place -/

/-- Type mirroring retypes one referencing column at a time: by induction on the fuel. -/
theorem keeps_mirrorLoop_of (dataType : Option String) (ls : Option LengthScale)
    (hretype : ∀ tid cid, Keeps R (modifyTable sid tid fun t =>
      { t with columns := (updateFirst (·.id = cid) (fun c => { c with dataType, lengthScale := ls })
        t.columns) })) :
    ∀ (fuel : Nat) (work visited : List (Id × Id)),
      Keeps R (mirrorLoop sid dataType ls fuel work visited)
  | 0, _, _ => by
    rw [mirrorLoop]
    exact Keeps.pure _
  | _ + 1, [], _ => by
    rw [mirrorLoop]
    exact Keeps.pure _
  | fuel + 1, (p, key) :: rest, visited => by
    rw [mirrorLoop]
    refine Keeps.bind (keeps_schema _).of_eq fun _ =>
      Keeps.bind (Keeps.foldlM (fun _ dependent => ?_) _ _) fun acc => ?_
    · obtain ⟨hid, fk⟩ := dependent
      exact Keeps.bind (hretype _ _) fun _ => Keeps.ite (fun _ => Keeps.pure _) fun _ =>
        Keeps.pure _
    · obtain ⟨rest, visited⟩ := acc
      exact keeps_mirrorLoop_of dataType ls hretype fuel rest visited

theorem keeps_mirrorTypeChange_of (dataType : Option String) (ls : Option LengthScale)
    (hretype : ∀ tid cid, Keeps R (modifyTable sid tid fun t =>
      { t with columns := (updateFirst (·.id = cid) (fun c => { c with dataType, lengthScale := ls })
        t.columns) }))
    (tid cid : Id) : Keeps R (mirrorTypeChange sid tid cid dataType ls) :=
  Keeps.bind (keeps_schema sid).of_eq fun _ => keeps_mirrorLoop_of dataType ls hretype _ _ _

/-- Changing a relationship puts back its holder, read just before, with the relationship
changed. -/
theorem keeps_modifyRelationship_of {rid : Id} {f : Relationship → Relationship}
    (hput : ∀ hid (t : Table), KeepsFrom (Database.FindsTable sid hid t) R
      (putTable sid hid { t with relationships := updateFirst (·.id = rid) f t.relationships })) :
    Keeps R (modifyRelationship sid rid f) := by
  unfold modifyRelationship
  refine Keeps.bind (keeps_relationship _ _) fun found => Keeps.bind_reads (reads_table _ _) fun t => ?_
  dsimp only
  split
  · exact KeepsFrom.bind_eq (Keeps.throw _) fun _ => hput _ _
  · exact hput _ _

end EditM

end SchemaDesign
