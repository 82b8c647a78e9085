import SchemaDesign.Proofs.Graph.Layered
import SchemaDesign.Proofs.Edit.Composite

/-!
# Edits add no identifying link of their own accord

An identifying link is a table's identifying relationship to its provider. Apart from creating a
relationship and making one identifying, every step of every operation keeps each table's id
and name and adds no link: `Database.NoNewLinks` relates the snapshot before a step to the one
after it, table by table.

The table changes come first (`Table.RelsWithin`: every identifying relationship after the change
has an identifying counterpart with the same provider before it), then the steps, from the
session's primitives up to the cascades, by the way each is built.
-/

namespace SchemaDesign

/-- The identifying relationships of `rs'` reach only providers that identifying relationships
of `rs` reach. -/
def RelsWithin (rs rs' : List Relationship) : Prop :=
  ∀ r' ∈ rs', r'.isIdentifying → ∃ r ∈ rs, r.isIdentifying ∧ r.pkTableId = r'.pkTableId

namespace RelsWithin

theorem refl (rs : List Relationship) : RelsWithin rs rs := fun r hr hi => ⟨r, hr, hi, rfl⟩

theorem trans {rs₁ rs₂ rs₃ : List Relationship} (h₁ : RelsWithin rs₁ rs₂)
    (h₂ : RelsWithin rs₂ rs₃) : RelsWithin rs₁ rs₃ := by
  intro r₃ hr₃ hi₃
  obtain ⟨r₂, hr₂, hi₂, hp₂⟩ := h₂ r₃ hr₃ hi₃
  obtain ⟨r₁, hr₁, hi₁, hp₁⟩ := h₁ r₂ hr₂ hi₂
  exact ⟨r₁, hr₁, hi₁, hp₁.trans hp₂⟩

theorem of_subset {rs rs' : List Relationship} (h : rs' ⊆ rs) : RelsWithin rs rs' :=
  fun r hr hi => ⟨r, h hr, hi, rfl⟩

/-- A change that keeps a relationship's provider, and makes none identifying. -/
def Narrowing (f : Relationship → Relationship) : Prop :=
  ∀ r, (f r).isIdentifying → r.isIdentifying ∧ r.pkTableId = (f r).pkTableId

/-- A change that keeps the kind and the provider, such as one of the mappings only. -/
theorem narrowing_of_eq {f : Relationship → Relationship} (hkind : ∀ r, (f r).kind = r.kind)
    (hpk : ∀ r, (f r).pkTableId = r.pkTableId) : Narrowing f := by
  intro r hi
  simp only [Relationship.isIdentifying, hkind] at hi ⊢
  exact ⟨hi, (hpk r).symm⟩

theorem map {f : Relationship → Relationship} (hf : Narrowing f) (rs : List Relationship) :
    RelsWithin rs (rs.map f) := by
  intro r' hr' hi
  obtain ⟨r, hr, rfl⟩ := List.mem_map.1 hr'
  exact ⟨r, hr, (hf r hi).1, (hf r hi).2⟩

theorem updateFirst {f : Relationship → Relationship} (hf : Narrowing f)
    (p : Relationship → Bool) : ∀ rs : List Relationship, RelsWithin rs (updateFirst p f rs)
  | [] => refl []
  | r :: rs => by
    unfold SchemaDesign.updateFirst
    split
    · intro r' hr' hi
      rcases List.mem_cons.1 hr' with rfl | hr'
      · exact ⟨r, List.mem_cons_self, (hf r hi).1, (hf r hi).2⟩
      · exact ⟨r', List.mem_cons_of_mem r hr', hi, rfl⟩
    · intro r' hr' hi
      rcases List.mem_cons.1 hr' with rfl | hr'
      · exact ⟨r', List.mem_cons_self, hi, rfl⟩
      · obtain ⟨r₀, hr₀, h₀⟩ := updateFirst hf p rs r' hr' hi
        exact ⟨r₀, List.mem_cons_of_mem r hr₀, h₀⟩

theorem filter (p : Relationship → Bool) (rs : List Relationship) : RelsWithin rs (rs.filter p) :=
  of_subset (List.filter_subset_self rs)

theorem eraseP (p : Relationship → Bool) (rs : List Relationship) : RelsWithin rs (rs.eraseP p) :=
  of_subset (List.eraseP_subset)

theorem strip {f : Relationship → Relationship} (hf : Narrowing f) (p q : Relationship → Bool)
    (rs : List Relationship) : RelsWithin rs ((SchemaDesign.updateFirst p f rs).filter q) :=
  (updateFirst hf p rs).trans (filter q _)

end RelsWithin

namespace Table

variable {E : Id → Id → Prop}

theorem linksWithin_of_rels {t t' : Table} (hid : t'.id = t.id) (hname : t'.name = t.name)
    (h : RelsWithin t.relationships t'.relationships) : t.LinksWithin E t' := by
  refine ⟨hid, hname, fun p hp => .inl ?_⟩
  obtain ⟨r', hr', hi, rfl⟩ := mem_providers.1 hp
  obtain ⟨r, hr, hir, hpk⟩ := h r' hr' hi
  exact mem_providers.2 ⟨r, hr, hir, hpk⟩

theorem linksWithin_of_eq {t t' : Table} (hid : t'.id = t.id) (hname : t'.name = t.name)
    (hrel : t'.relationships = t.relationships) : t.LinksWithin E t' :=
  linksWithin_of_rels hid hname (hrel ▸ RelsWithin.refl _)

@[simp] theorem resequenceColumns_id (t : Table) : t.resequenceColumns.id = t.id := rfl
@[simp] theorem resequenceColumns_name (t : Table) : t.resequenceColumns.name = t.name := rfl
@[simp] theorem resequenceColumns_relationships (t : Table) :
    t.resequenceColumns.relationships = t.relationships := rfl

@[simp] theorem updateColumn_id (c : Id) (f : Column → Column) (t : Table) :
    (t.updateColumn c f).id = t.id := rfl
@[simp] theorem updateColumn_name (c : Id) (f : Column → Column) (t : Table) :
    (t.updateColumn c f).name = t.name := rfl
@[simp] theorem updateColumn_relationships (c : Id) (f : Column → Column) (t : Table) :
    (t.updateColumn c f).relationships = t.relationships := rfl

@[simp] theorem updateIndex_id (i : Id) (f : Index → Index) (t : Table) :
    (t.updateIndex i f).id = t.id := rfl
@[simp] theorem updateIndex_name (i : Id) (f : Index → Index) (t : Table) :
    (t.updateIndex i f).name = t.name := rfl
@[simp] theorem updateIndex_relationships (i : Id) (f : Index → Index) (t : Table) :
    (t.updateIndex i f).relationships = t.relationships := rfl

@[simp] theorem updateConstraint_id (k : Id) (f : Constraint → Constraint) (t : Table) :
    (t.updateConstraint k f).id = t.id := rfl
@[simp] theorem updateConstraint_name (k : Id) (f : Constraint → Constraint) (t : Table) :
    (t.updateConstraint k f).name = t.name := rfl
@[simp] theorem updateConstraint_relationships (k : Id) (f : Constraint → Constraint)
    (t : Table) : (t.updateConstraint k f).relationships = t.relationships := rfl

theorem dropRestatingKeys_eq : ∀ (fuel : Nat) (t : Table),
    dropRestatingKeys fuel t = { t with constraints := (dropRestatingKeys fuel t).constraints }
  | 0, _ => rfl
  | fuel + 1, t => by
    unfold dropRestatingKeys
    split
    · rfl
    · exact dropRestatingKeys_eq fuel _

@[simp] theorem pruneRedundantKeys_id (t : Table) : t.pruneRedundantKeys.id = t.id := by
  unfold pruneRedundantKeys
  dsimp only
  rw [dropRestatingKeys_eq]
@[simp] theorem pruneRedundantKeys_name (t : Table) : t.pruneRedundantKeys.name = t.name := by
  unfold pruneRedundantKeys
  dsimp only
  rw [dropRestatingKeys_eq]
@[simp] theorem pruneRedundantKeys_columns (t : Table) :
    t.pruneRedundantKeys.columns = t.columns := by
  unfold pruneRedundantKeys
  dsimp only
  rw [dropRestatingKeys_eq]
@[simp] theorem pruneRedundantKeys_relationships (t : Table) :
    t.pruneRedundantKeys.relationships = t.relationships := by
  unfold pruneRedundantKeys
  dsimp only
  rw [dropRestatingKeys_eq]

@[simp] theorem detachColumn_id (t : Table) (c : Id) : (t.detachColumn c).1.id = t.id := by
  unfold detachColumn
  split <;> simp

@[simp] theorem detachColumn_name (t : Table) (c : Id) : (t.detachColumn c).1.name = t.name := by
  unfold detachColumn
  split <;> simp

theorem withoutFkColumn_narrowing (c : Id) :
    RelsWithin.Narrowing (Relationship.withoutFkColumn · c) :=
  RelsWithin.narrowing_of_eq (by intro; rfl) (by intro; rfl)

theorem detachColumn_rels (t : Table) (c : Id) :
    RelsWithin t.relationships (t.detachColumn c).1.relationships := by
  unfold detachColumn
  split
  · simp only [pruneRedundantKeys_relationships]
    exact (RelsWithin.map (withoutFkColumn_narrowing c) _).trans (RelsWithin.filter _ _)
  · exact RelsWithin.refl _

theorem linksWithin_detachColumn (t : Table) (c : Id) : t.LinksWithin E (t.detachColumn c).1 :=
  linksWithin_of_rels (by simp) (by simp) (detachColumn_rels t c)

/-- A relation between tables that allows what the key-removal cascade does to a table:
dropping mappings and relationships, and detaching columns. -/
structure AllowsCascade (T : Table → Table → Prop) : Prop where
  rels : ∀ (t : Table) (rs : List Relationship), RelsWithin t.relationships rs →
    T t { t with relationships := rs }
  detach : ∀ (t : Table) (c : Id), T t (t.detachColumn c).1

theorem allowsCascade_linksWithin : AllowsCascade (LinksWithin E) :=
  ⟨fun _ _ h => linksWithin_of_rels rfl rfl h, linksWithin_detachColumn⟩

theorem AllowsCascade.foldl_detach {T : Table → Table → Prop} [IsPreorder Table T]
    (hT : AllowsCascade T) (cs : List Id) (t : Table) :
    T t (cs.foldl (fun t c => (t.detachColumn c).1) t) := by
  induction cs generalizing t with
  | nil => exact Std.Refl.refl t
  | cons c cs ih => exact IsTrans.trans _ _ _ (hT.detach t c) (ih _)

end Table

/-- `db'` has the schemas and tables of `db`, in order and with their ids and names, and no
table has an identifying link that it did not have in `db`. -/
abbrev Database.NoNewLinks : Database → Database → Prop :=
  Database.Tablewise (Table.LinksWithin fun _ _ => False)

namespace EditM

/-! ## Steps that change tables

Each keeps every table's id and name and adds no link. A step changes tables only through
`modifyTable` or by putting back a table it read before, with its relationships kept, stripped
of mappings, or narrowed to those that stay. -/

section Changes

theorem keeps_addNotNull (sid tid cid : Id) (tableName columnName : String) :
    Keeps Database.NoNewLinks (addNotNull sid tid cid tableName columnName) := by
  unfold addNotNull
  refine Keeps.bind (keeps_freshConstraintName _ _) fun _ => ?_
  refine Keeps.bind (keeps_notNullConstraint _ _ _) fun _ => ?_
  exact keeps_modifyTable fun t _ => Table.linksWithin_of_eq rfl rfl rfl

theorem keeps_removeFromPrimaryKey (sid tid : Id) (cs : List Id) :
    Keeps Database.NoNewLinks (removeFromPrimaryKey sid tid cs) :=
  keeps_modifyTable fun t _ => Table.linksWithin_of_eq (by simp) (by simp) (by simp)

theorem keeps_addToPrimaryKey (sid tid : Id) (cs : List Id) :
    Keeps Database.NoNewLinks (addToPrimaryKey sid tid cs) := by
  intro st u st' h
  obtain ⟨t, ks, ⟨s, hs, ht⟩, hdb, -⟩ := addToPrimaryKey_run h
  rw [hdb]
  exact tablewise_updateTable hs ht (Table.linksWithin_of_eq rfl rfl rfl)

theorem keeps_attachForeignKey (sid hid rid pid : Id) (spec : FkSpec) :
    Keeps Database.NoNewLinks (attachForeignKey sid hid rid pid spec) :=
  keeps_attachForeignKey_of (fun _ => keeps_modifyTable fun _ _ => Table.linksWithin_of_eq rfl rfl rfl)
    (keeps_modifyTable fun _ _ => Table.linksWithin_of_rels rfl rfl
      (RelsWithin.updateFirst (RelsWithin.narrowing_of_eq (by intro; rfl) (by intro; rfl)) _ _))

theorem keeps_propagateDependent (sid pid : Id) (keys : List Id)
    (acc : List (Id × List Id) × List (Id × Id) × Nat) (dependent : Id × Id) :
    Keeps Database.NoNewLinks (propagateDependent sid pid keys acc dependent) :=
  keeps_propagateDependent_of (keeps_attachForeignKey sid) (keeps_addToPrimaryKey sid) pid keys acc
    dependent

theorem keeps_propagateKeys (sid pid : Id) (keys : List Id) :
    Keeps Database.NoNewLinks (propagateKeys sid pid keys) :=
  keeps_propagateKeys_of_dependent (keeps_propagateDependent sid) pid keys

section Cascade

variable {T : Table → Table → Prop} [IsPreorder Table T]

theorem tablewise_dropMapping (hT : Table.AllowsCascade T) (sid hid rid fk key : Id) :
    Keeps (Database.Tablewise T) (dropMapping sid hid rid fk key) := by
  have hstrip : ∀ t : Table, T t (t.dropLink rid fk key) := fun t =>
    hT.rels t _ (RelsWithin.strip (RelsWithin.narrowing_of_eq (by intro; rfl) (by intro; rfl)) _ _ _)
  refine keeps_dropMapping_of (fun t => keepsFrom_putTable (hstrip t)) fun t => ?_
  exact keepsFrom_putTable (IsTrans.trans _ _ _ (hstrip t) (hT.detach _ fk))

theorem tablewise_cascadeKeyRemoval (hT : Table.AllowsCascade T) (sid : Id)
    (seeds : List (Id × Id)) (survive : Bool) :
    Keeps (Database.Tablewise T) (cascadeKeyRemoval sid seeds survive) :=
  keeps_cascadeKeyRemoval_of (tablewise_dropMapping hT sid) seeds survive

end Cascade

theorem keeps_cascadeKeyRemoval (sid : Id) (seeds : List (Id × Id)) (survive : Bool) :
    Keeps Database.NoNewLinks (cascadeKeyRemoval sid seeds survive) :=
  tablewise_cascadeKeyRemoval Table.allowsCascade_linksWithin sid seeds survive

theorem keeps_mirrorLoop (sid : Id) (dataType : Option String) (ls : Option LengthScale) :
    ∀ (fuel : Nat) (work visited : List (Id × Id)),
      Keeps Database.NoNewLinks (mirrorLoop sid dataType ls fuel work visited) :=
  keeps_mirrorLoop_of dataType ls fun _ _ =>
    keeps_modifyTable fun _ _ => Table.linksWithin_of_eq rfl rfl rfl

theorem keeps_mirrorTypeChange (sid tid cid : Id) (dataType : Option String)
    (ls : Option LengthScale) : Keeps Database.NoNewLinks (mirrorTypeChange sid tid cid dataType ls) :=
  Keeps.bind (keeps_schema sid).of_eq fun _ => keeps_mirrorLoop _ _ _ _ _ _

theorem keeps_modifyRelationship (sid rid : Id) {f : Relationship → Relationship}
    (hf : RelsWithin.Narrowing f) : Keeps Database.NoNewLinks (modifyRelationship sid rid f) :=
  keeps_modifyRelationship_of fun _ _ =>
    keepsFrom_putTable (Table.linksWithin_of_rels rfl rfl (RelsWithin.updateFirst hf _ _))

theorem keeps_completeIdentifying (sid rid : Id) :
    Keeps Database.NoNewLinks (completeIdentifying sid rid) :=
  keeps_completeIdentifying_of (keeps_attachForeignKey sid) (keeps_addToPrimaryKey sid) rid

theorem keeps_releaseFkColumns (sid hid : Id) (fks : List Id) :
    Keeps Database.NoNewLinks (releaseFkColumns sid hid fks) :=
  keeps_releaseFkColumns_of (tablewise_dropMapping Table.allowsCascade_linksWithin sid)
    (fun _ cs => keeps_modifyTable fun t _ => Table.allowsCascade_linksWithin.foldl_detach cs t) hid fks

theorem keeps_deleteRelationship (sid rid : Id) :
    Keeps Database.NoNewLinks (deleteRelationship sid rid) :=
  keeps_deleteRelationship_of (tablewise_dropMapping Table.allowsCascade_linksWithin sid)
    (fun _ cs => keeps_modifyTable fun t _ => Table.allowsCascade_linksWithin.foldl_detach cs t)
    (fun _ _ _ => keepsFrom_putTable (Table.linksWithin_of_rels rfl rfl (RelsWithin.eraseP _ _))) rid

theorem keeps_changeColumnPosition (sid tid cid : Id) (position : Nat) :
    Keeps Database.NoNewLinks (changeColumnPosition sid tid cid position) :=
  keeps_changeColumnPosition_of fun _ _ => keepsFrom_putTable (Table.linksWithin_of_eq rfl rfl rfl)

end Changes

end EditM

end SchemaDesign
