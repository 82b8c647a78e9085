import SchemaDesign.Proofs.Edit.Links

/-!
# Operations that keep the tables and their links

Apart from the operations that add or drop a schema or a table, rename a table, create a
relationship or change the kind of one, every operation keeps each table's id and name and adds
no identifying link (`Operation.keeps_run`). Each is a sequence of the steps of the previous
module: a proof takes the operation apart bind by bind and case by case, and closes each step by
its lemma. A refusal ends a run, so what follows it needs no proof (`Keeps.throw_bind`).
-/

namespace SchemaDesign

namespace EditM

/-! ## Schemas and tables -/

theorem keeps_changeSchemaName (sid : Id) (name : String) :
    Keeps Database.NoNewLinks (changeSchemaName sid name) :=
  Keeps.bind (keeps_schema sid).of_eq fun _ => Keeps.bind (keeps_checkSchemaName _ _) fun _ =>
    keeps_modifySchema fun _ _ => ⟨rfl, List.forall₂_refl _⟩

theorem keeps_changeTableComment (sid tid : Id) (comment : Option String) :
    Keeps Database.NoNewLinks (changeTableComment sid tid comment) :=
  keeps_modifyTable fun _ _ => Table.linksWithin_of_eq rfl rfl rfl

/-! ## Columns -/

theorem keeps_createColumn (sid tid : Id) (d : ColumnDraft) :
    Keeps Database.NoNewLinks (createColumn sid tid d) :=
  keeps_createColumn_of (fun _ => keeps_modifyTable fun _ _ => Table.linksWithin_of_eq rfl rfl rfl)
    (fun _ => keeps_modifyTable fun _ _ => Table.linksWithin_of_eq rfl rfl rfl) (keeps_addToPrimaryKey _ _ _) (keeps_propagateKeys _ _ _)

theorem keeps_deleteColumn (sid tid cid : Id) :
    Keeps Database.NoNewLinks (deleteColumn sid tid cid) :=
  keeps_deleteColumn_of (keeps_cascadeKeyRemoval sid)
    (keeps_modifyTable fun t _ => Table.linksWithin_detachColumn t _)

theorem keeps_changeColumnName (sid tid cid : Id) (name : String) :
    Keeps Database.NoNewLinks (changeColumnName sid tid cid name) :=
  Keeps.bind (keeps_column _ _ _).of_eq fun _ => Keeps.bind (keeps_checkColumnName _ _ _ _) fun _ =>
    keeps_modifyTable fun _ _ => Table.linksWithin_of_eq rfl rfl rfl

theorem keeps_changeColumnType (sid tid cid : Id) (dataType : Option String)
    (ls : Option LengthScale) : Keeps Database.NoNewLinks (changeColumnType sid tid cid dataType ls) :=
  keeps_changeColumnType_of (keeps_modifyTable fun _ _ => Table.linksWithin_of_eq rfl rfl rfl)
    (keeps_mirrorTypeChange _ _ _ _ _)

theorem keeps_changeColumnNullable (sid tid cid : Id) (nullable : Bool) :
    Keeps Database.NoNewLinks (changeColumnNullable sid tid cid nullable) :=
  keeps_changeColumnNullable_of (fun _ => keeps_modifyTable fun _ _ => Table.linksWithin_of_eq rfl rfl rfl)
    fun _ _ _ => keeps_addNotNull _ _ _ _ _

theorem keeps_changeColumnAutoIncrement (sid tid cid : Id) (enabled : Bool) :
    Keeps Database.NoNewLinks (changeColumnAutoIncrement sid tid cid enabled) :=
  keeps_changeColumnAutoIncrement_of (keeps_modifyTable fun _ _ => Table.linksWithin_of_eq rfl rfl rfl)

/-! ## Indexes -/

theorem keeps_createIndex (sid tid : Id) (d : IndexDraft) :
    Keeps Database.NoNewLinks (createIndex sid tid d) :=
  keeps_createIndex_of (Reads.of_keeps (keeps_checkIndexName _ _ _)) (fun _ _ _ _ => trivial)
    fun _ _ => Keeps.keepsFrom (keeps_modifyTable fun _ _ => Table.linksWithin_of_eq rfl rfl rfl)

theorem keeps_deleteIndex (sid tid iid : Id) : Keeps Database.NoNewLinks (deleteIndex sid tid iid) :=
  Keeps.bind (keeps_index _ _ _) fun _ =>
    keeps_modifyTable fun _ _ => Table.linksWithin_of_eq rfl rfl rfl

theorem keeps_changeIndexName (sid tid iid : Id) (name : String) :
    Keeps Database.NoNewLinks (changeIndexName sid tid iid name) :=
  Keeps.bind (keeps_index _ _ _) fun _ => Keeps.bind (keeps_checkIndexName _ _ _) fun _ =>
    keeps_modifyTable fun _ _ => Table.linksWithin_of_eq rfl rfl rfl

theorem keeps_addColumnToIndex (sid tid iid : Id) (d : IndexColumnDraft) :
    Keeps Database.NoNewLinks (addColumnToIndex sid tid iid d) :=
  keeps_addColumnToIndex_of (keeps_modifyTable fun _ _ => Table.linksWithin_of_eq rfl rfl rfl)

theorem keeps_removeColumnFromIndex (sid tid iid eid : Id) :
    Keeps Database.NoNewLinks (removeColumnFromIndex sid tid iid eid) :=
  keeps_removeColumnFromIndex_of (keeps_modifyTable fun _ _ => Table.linksWithin_of_eq rfl rfl rfl)
    fun _ => Keeps.keepsFrom (keeps_modifyTable fun _ _ => Table.linksWithin_of_eq rfl rfl rfl)

theorem keeps_changeIndexColumnSortDir (sid tid iid eid : Id) (sortDir : SortDir) :
    Keeps Database.NoNewLinks (changeIndexColumnSortDir sid tid iid eid sortDir) :=
  keeps_changeIndexColumnSortDir_of (keeps_modifyTable fun _ _ => Table.linksWithin_of_eq rfl rfl rfl)

/-! ## Constraints -/

theorem keeps_createConstraint (sid tid : Id) (d : ConstraintDraft) :
    Keeps Database.NoNewLinks (createConstraint sid tid d) :=
  keeps_createConstraint_of (Reads.of_keeps (keeps_checkConstraintName _ _ _))
    (fun _ _ _ _ => trivial) (fun _ _ => Keeps.keepsFrom (keeps_modifyTable fun _ _ => Table.linksWithin_of_eq rfl rfl rfl))
    (keeps_propagateKeys sid tid)

theorem keeps_deleteConstraint (sid tid kid : Id) :
    Keeps Database.NoNewLinks (deleteConstraint sid tid kid) :=
  keeps_deleteConstraint_of (keeps_modifyTable fun _ _ => Table.linksWithin_of_eq rfl rfl rfl)
    (keeps_cascadeKeyRemoval sid)

theorem keeps_changeConstraintName (sid tid kid : Id) (name : String) :
    Keeps Database.NoNewLinks (changeConstraintName sid tid kid name) :=
  Keeps.bind (keeps_constraint _ _ _) fun _ => Keeps.bind (keeps_checkConstraintName _ _ _) fun _ =>
    keeps_modifyTable fun _ _ => Table.linksWithin_of_eq rfl rfl rfl

theorem keeps_addColumnToConstraint (sid tid kid : Id) (d : ConstraintColumnDraft) :
    Keeps Database.NoNewLinks (addColumnToConstraint sid tid kid d) :=
  keeps_addColumnToConstraint_of (keeps_modifyTable fun _ _ => Table.linksWithin_of_eq rfl rfl rfl)
    (keeps_propagateKeys sid tid)

theorem keeps_removeColumnFromConstraint (sid tid kid eid : Id) :
    Keeps Database.NoNewLinks (removeColumnFromConstraint sid tid kid eid) :=
  keeps_removeColumnFromConstraint_of (keeps_modifyTable fun _ _ => Table.linksWithin_of_eq rfl rfl rfl)
    (fun _ => Keeps.keepsFrom (keeps_modifyTable fun _ _ => Table.linksWithin_of_eq rfl rfl rfl)) (keeps_cascadeKeyRemoval sid)

/-! ## Relationships -/

theorem keeps_changeRelationshipName (sid rid : Id) (name : String) :
    Keeps Database.NoNewLinks (changeRelationshipName sid rid name) :=
  Keeps.bind (keeps_relationship _ _) fun _ => Keeps.bind (keeps_checkRelationshipName _ _ _ _)
    fun _ => keeps_modifyRelationship _ _ (RelsWithin.narrowing_of_eq (by intro; rfl) (by intro; rfl))

theorem keeps_changeRelationshipCardinality (sid rid : Id) (cardinality : Cardinality) :
    Keeps Database.NoNewLinks (changeRelationshipCardinality sid rid cardinality) :=
  Keeps.bind (keeps_modifyRelationship _ _
    (RelsWithin.narrowing_of_eq (by intro; rfl) (by intro; rfl))) fun _ =>
      keeps_revalidateRelationship _ _

theorem keeps_changeRelationshipActions (sid rid : Id) (onDelete onUpdate : ReferentialAction) :
    Keeps Database.NoNewLinks (changeRelationshipActions sid rid onDelete onUpdate) :=
  Keeps.bind (keeps_modifyRelationship _ _
    (RelsWithin.narrowing_of_eq (by intro; rfl) (by intro; rfl))) fun _ =>
      keeps_revalidateRelationship _ _

theorem keeps_addColumnToRelationship (sid rid : Id) (m : MappingDraft) :
    Keeps Database.NoNewLinks (addColumnToRelationship sid rid m) :=
  keeps_addColumnToRelationship_of (fun _ _ => keeps_attachForeignKey _ _ _ _ _)
    (keeps_addToPrimaryKey sid) (keeps_propagateKeys sid)

theorem keeps_removeColumnFromRelationship (sid rid mid : Id) :
    Keeps Database.NoNewLinks (removeColumnFromRelationship sid rid mid) :=
  keeps_removeColumnFromRelationship_of (fun _ => keeps_modifyTable fun _ _ =>
    Table.linksWithin_of_rels rfl rfl ((RelsWithin.map (RelsWithin.narrowing_of_eq
      (by intro r; split <;> rfl) (by intro r; split <;> rfl)) _).trans (RelsWithin.filter _ _)))
    (keeps_releaseFkColumns sid)

end EditM

namespace Operation

/-- The operations that add or drop a schema or a table, rename a table, or may add an
identifying link. -/
def reshapes : Operation → Bool
  | .createSchema .. | .deleteSchema .. | .createTable .. | .deleteTable .. | .changeTableName ..
  | .createRelationship .. | .changeRelationshipKind .. => true
  | _ => false

open EditM in
/-- Every other operation keeps the tables of each schema, their ids and names, and adds no
link. -/
theorem keeps_run : ∀ op : Operation, op.reshapes = false → Keeps Database.NoNewLinks op.run
  | .changeSchemaName s n, _ => keeps_changeSchemaName s n
  | .changeTableComment s t c, _ => keeps_changeTableComment s t c
  | .createColumn s t d, _ => keeps_createColumn s t d
  | .deleteColumn s t c, _ => keeps_deleteColumn s t c
  | .changeColumnName s t c n, _ => keeps_changeColumnName s t c n
  | .changeColumnType s t c dt ls, _ => keeps_changeColumnType s t c dt ls
  | .changeColumnPosition s t c p, _ => keeps_changeColumnPosition s t c p
  | .changeColumnNullable s t c b, _ => keeps_changeColumnNullable s t c b
  | .changeColumnAutoIncrement s t c b, _ => keeps_changeColumnAutoIncrement s t c b
  | .createIndex s t d, _ => keeps_createIndex s t d
  | .deleteIndex s t i, _ => keeps_deleteIndex s t i
  | .changeIndexName s t i n, _ => keeps_changeIndexName s t i n
  | .addColumnToIndex s t i d, _ => keeps_addColumnToIndex s t i d
  | .removeColumnFromIndex s t i e, _ => keeps_removeColumnFromIndex s t i e
  | .changeIndexColumnSortDir s t i e d, _ => keeps_changeIndexColumnSortDir s t i e d
  | .createConstraint s t d, _ => keeps_createConstraint s t d
  | .deleteConstraint s t k, _ => keeps_deleteConstraint s t k
  | .changeConstraintName s t k n, _ => keeps_changeConstraintName s t k n
  | .addColumnToConstraint s t k d, _ => keeps_addColumnToConstraint s t k d
  | .removeColumnFromConstraint s t k e, _ => keeps_removeColumnFromConstraint s t k e
  | .deleteRelationship s r, _ => keeps_deleteRelationship s r
  | .changeRelationshipName s r n, _ => keeps_changeRelationshipName s r n
  | .changeRelationshipCardinality s r c, _ => keeps_changeRelationshipCardinality s r c
  | .changeRelationshipActions s r d u, _ => keeps_changeRelationshipActions s r d u
  | .addColumnToRelationship s r m, _ => keeps_addColumnToRelationship s r m
  | .removeColumnFromRelationship s r m, _ => keeps_removeColumnFromRelationship s r m
  | .createSchema .., h | .deleteSchema .., h | .createTable .., h | .deleteTable .., h
  | .changeTableName .., h | .createRelationship .., h | .changeRelationshipKind .., h =>
    nomatch h

end Operation

end SchemaDesign
