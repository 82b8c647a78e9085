import SchemaDesign.Proofs.Edit.Sequences

/-!
# Steps that extend or trim every table

The steps operations are made of, each shown to extend every table (`Database.Extends`: the
steps that add columns, entries, mappings, keys and relationships) or to trim every table
(`Database.Trims`: the steps that remove them). A step that changes only names, types, flags or
actions keeps every id and number (`Table.layout`), and so does both; it is stated once for any
relation that such changes keep.

Each proof takes the step apart bind by bind, as in the module on links: reads keep every
preorder, and each table change is closed by its lemma of the previous module.
-/

namespace SchemaDesign

/-- Every table of `db'` extends its counterpart in `db`. -/
abbrev Database.Extends : Database → Database → Prop := Database.Tablewise Table.Extends

/-- Every table of `db'` trims its counterpart in `db`. -/
abbrev Database.Trims : Database → Database → Prop := Database.Tablewise Table.Trims

namespace EditM

/-- A step whose run is known to succeed only where `P` holds, when `P` is a fact. -/
theorem KeepsFrom.of_prop {α : Type} {P : Prop} {R : Database → Database → Prop} {x : EditM α}
    (h : P → Keeps R x) : KeepsFrom (fun _ => P) R x :=
  fun st a st' hp hr => h hp st a st' hr

/-! ## Steps that keep every id and number -/

section Layout

variable {T : Table → Table → Prop} [IsPreorder Table T]

/-- Changing a relationship's name, kind, cardinality or actions puts back its holder with the
same layout. -/
theorem tablewise_modifyRelationship (hT : ∀ t t', t'.layout = t.layout → T t t') (sid rid : Id)
    {f : Relationship → Relationship} (hf : ∀ r, (f r).id = r.id ∧ (f r).columns = r.columns) :
    Keeps (Database.Tablewise T) (modifyRelationship sid rid f) :=
  keeps_modifyRelationship_of fun _ t =>
    keepsFrom_putTable (hT _ _ (Table.layout_changeRelationship t rid hf))

/-- Copying a type into referencing columns changes columns in place. -/
theorem tablewise_mirrorLoop (hT : ∀ t t', t'.layout = t.layout → T t t') (sid : Id)
    (dataType : Option String) (ls : Option LengthScale) :
    ∀ (fuel : Nat) (work visited : List (Id × Id)),
      Keeps (Database.Tablewise T) (mirrorLoop sid dataType ls fuel work visited) :=
  keeps_mirrorLoop_of dataType ls fun _ _ =>
    keeps_modifyTable fun t _ => hT _ _ (Table.layout_updateColumn t _ fun _ => ⟨rfl, rfl⟩)

theorem tablewise_mirrorTypeChange (hT : ∀ t t', t'.layout = t.layout → T t t')
    (sid tid cid : Id) (dataType : Option String) (ls : Option LengthScale) :
    Keeps (Database.Tablewise T) (mirrorTypeChange sid tid cid dataType ls) :=
  Keeps.bind (keeps_schema sid).of_eq fun _ => tablewise_mirrorLoop hT _ _ _ _ _ _

end Layout

/-! ## Steps that add entries -/

theorem reads_notNullConstraint (tid cid : Id) (name : String) :
    Reads (fun k _ => Numbered (·.seqNo) k.columns) (notNullConstraint tid cid name) :=
  Reads.bind_keeps keeps_mint fun _ => Reads.bind_keeps keeps_mint fun _ => Reads.pure fun _ => rfl

theorem extends_addNotNull (sid tid cid : Id) (tableName columnName : String) :
    Keeps Database.Extends (addNotNull sid tid cid tableName columnName) := by
  unfold addNotNull
  refine Keeps.bind (keeps_freshConstraintName _ _) fun _ => ?_
  refine Keeps.bind_reads (reads_notNullConstraint _ _ _) fun k => KeepsFrom.of_prop fun hk => ?_
  exact keeps_modifyTable fun t _ => Table.extends_appendConstraint t hk

theorem extends_attachForeignKey (sid hid rid pid : Id) (spec : FkSpec) :
    Keeps Database.Extends (attachForeignKey sid hid rid pid spec) :=
  keeps_attachForeignKey_of (fun _ => keeps_modifyTable fun t _ => Table.extends_appendColumn t _)
    (keeps_modifyTable fun t _ => Table.extends_appendMapping t _ _ _ _)

theorem appendKeyColumn_grows {pk pk' : Constraint} {c : Id} {st st' : Session}
    (h : (appendKeyColumn pk c).run st = .ok pk' st') :
    st'.db = st.db ∧ OutlineGrows pk.outline pk'.outline ∧
      (Numbered (·.seqNo) pk.columns → Numbered (·.seqNo) pk'.columns) := by
  unfold appendKeyColumn at h
  split at h
  · obtain ⟨rfl, rfl⟩ := pure_run h
    exact ⟨rfl, Std.Refl.refl _, id⟩
  · obtain ⟨id, st₁, h₁, h₂⟩ := run_bind_ok h
    obtain ⟨rfl, rfl⟩ := pure_run h₂
    refine ⟨(keeps_mint _ _ _ h₁).symm, ?_, fun hn => hn.append_singleton rfl⟩
    simpa [Constraint.outline] using outlineGrows_append pk.id (pk.columns.map (·.id)) [id]

/-- Growing the key, column after column, extends the table. -/
theorem extendPrimaryKey_extends {t t' : Table} {cs : List Id} {st st' : Session}
    (h : (extendPrimaryKey t cs).run st = .ok t' st') : st'.db = st.db ∧ t.Extends t' := by
  unfold extendPrimaryKey at h
  split at h
  · obtain ⟨rfl, rfl⟩ := pure_run h
    exact ⟨rfl, Table.Extends.refl t⟩
  · next pk hpk =>
    obtain ⟨pk', st₁, h₁, h₂⟩ := run_bind_ok h
    obtain ⟨rfl, rfl⟩ := pure_run h₂
    -- the key grows through the fold, and stays numbered if it was
    obtain ⟨⟨hdb, hg, hn⟩, -⟩ := foldlM_run
      (fun (k k' : Constraint) (db db' : Database) => db' = db ∧
        OutlineGrows k.outline k'.outline ∧
        (Numbered ConstraintColumn.seqNo k.columns → Numbered ConstraintColumn.seqNo k'.columns))
      (fun _ _ _ => True)
      (fun _ _ => ⟨rfl, Std.Refl.refl _, id⟩)
      (fun _ _ _ _ _ _ h₁ h₂ => ⟨h₂.1.trans h₁.1, IsTrans.trans _ _ _ h₁.2.1 h₂.2.1,
        h₂.2.2 ∘ h₁.2.2⟩)
      (fun _ _ _ _ _ _ _ => trivial)
      (fun _ _ _ _ _ hrun => ⟨appendKeyColumn_grows hrun, trivial⟩) cs pk st pk' st₁ h₁
    exact ⟨hdb, Table.extends_replaceKey hpk hg hn⟩

/-- A table without a key is given an empty one. -/
theorem withPrimaryKey_extends {sid tid : Id} {t t' : Table} {st st' : Session}
    (h : (withPrimaryKey sid tid t).run st = .ok t' st') : st'.db = st.db ∧ t.Extends t' := by
  unfold withPrimaryKey at h
  split at h
  · obtain ⟨rfl, rfl⟩ := pure_run h
    exact ⟨rfl, Table.Extends.refl t⟩
  · obtain ⟨name, st₁, h₁, h₂⟩ := run_bind_ok h
    obtain ⟨id, st₂, h₃, h₄⟩ := run_bind_ok h₂
    obtain ⟨rfl, rfl⟩ := pure_run h₄
    have hdb₁ : st.db = st₁.db := (keeps_freshConstraintName sid _ : Keeps Eq _) _ _ _ h₁
    have hdb₂ : st₁.db = st₂.db := keeps_mint _ _ _ h₃
    exact ⟨(hdb₁.trans hdb₂).symm, Table.extends_appendConstraint t rfl⟩

/-- The key grows, and is created first when there is none. -/
theorem extends_addToPrimaryKey (sid tid : Id) (cs : List Id) :
    Keeps Database.Extends (addToPrimaryKey sid tid cs) := by
  intro st u st' h
  unfold addToPrimaryKey at h
  obtain ⟨t, st₁, h₁, h₂⟩ := run_bind_ok h
  obtain ⟨rfl, s, hs, ht⟩ := table_run h₁
  obtain ⟨t₁, st₂, h₃, h₄⟩ := run_bind_ok h₂
  obtain ⟨hdb₂, hext₁⟩ := withPrimaryKey_extends h₃
  obtain ⟨t₂, st₃, h₅, h₆⟩ := run_bind_ok h₄
  obtain ⟨hdb₃, hext₂⟩ := extendPrimaryKey_extends h₅
  obtain ⟨_, st₄, h₇, h₈⟩ := run_bind_ok h₆
  obtain ⟨hput, -⟩ := modifyTable_run h₇
  obtain ⟨rfl, -⟩ := check_run h₈
  rw [hput, hdb₃, hdb₂]
  exact tablewise_updateTable hs ht (hext₁.trans hext₂)

theorem extends_propagateDependent (sid pid : Id) (keys : List Id)
    (acc : List (Id × List Id) × List (Id × Id) × Nat) (dependent : Id × Id) :
    Keeps Database.Extends (propagateDependent sid pid keys acc dependent) :=
  keeps_propagateDependent_of (extends_attachForeignKey sid) (extends_addToPrimaryKey sid) pid keys
    acc dependent

theorem extends_propagateKeys (sid pid : Id) (keys : List Id) :
    Keeps Database.Extends (propagateKeys sid pid keys) :=
  keeps_propagateKeys_of_dependent (extends_propagateDependent sid) pid keys

theorem extends_completeIdentifying (sid rid : Id) :
    Keeps Database.Extends (completeIdentifying sid rid) :=
  keeps_completeIdentifying_of (extends_attachForeignKey sid) (extends_addToPrimaryKey sid) rid

/-! ## Steps that remove entries -/

theorem trims_dropMapping (sid hid rid fk key : Id) :
    Keeps Database.Trims (dropMapping sid hid rid fk key) := by
  refine keeps_dropMapping_of (fun t => keepsFrom_putTable (Table.trims_dropLink t rid fk key))
    fun t => ?_
  exact keepsFrom_putTable ((Table.trims_dropLink t rid fk key).trans (Table.trims_detachColumn _ fk))

theorem trims_cascadeKeyRemoval (sid : Id) (seeds : List (Id × Id)) (survive : Bool) :
    Keeps Database.Trims (cascadeKeyRemoval sid seeds survive) :=
  keeps_cascadeKeyRemoval_of (trims_dropMapping sid) seeds survive

theorem trims_removeFromPrimaryKey (sid tid : Id) (cs : List Id) :
    Keeps Database.Trims (removeFromPrimaryKey sid tid cs) :=
  keeps_modifyTable fun t _ => Table.trims_removeKeyColumns t cs

theorem trims_releaseFkColumns (sid hid : Id) (fks : List Id) :
    Keeps Database.Trims (releaseFkColumns sid hid fks) :=
  keeps_releaseFkColumns_of (trims_dropMapping sid)
    (fun _ cs => keeps_modifyTable fun t _ => Table.trims_foldl_detachColumn cs t) hid fks

theorem trims_deleteRelationship (sid rid : Id) :
    Keeps Database.Trims (deleteRelationship sid rid) :=
  keeps_deleteRelationship_of (trims_dropMapping sid)
    (fun _ cs => keeps_modifyTable fun t _ => Table.trims_foldl_detachColumn cs t)
    (fun _ t _ => keepsFrom_putTable (Table.trims_eraseRelationship t _)) rid

end EditM

end SchemaDesign
