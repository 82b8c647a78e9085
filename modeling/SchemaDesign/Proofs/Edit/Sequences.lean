import SchemaDesign.Proofs.Edit.RemovalFrame

/-!
# Numbered sequences and the order of their entries

A table holds four kinds of sequence: its columns, numbered by ordinal position, and the entries
of each index, constraint and relationship, numbered by sequence number. A sequence is
`Numbered` when its numbers are 1, 2, … in list order, and a table is `Gapless` when all its
sequences are.

Two relations say how an edit may change a table's sequences without reordering them. They look
at a sequence through the ids of its entries; an index, a constraint or a relationship through
its `outline`, its id with the ids of its entries.

- `Table.Extends t t'`: `t'` keeps every entry of `t` in its place and appends entries after
  them, in every sequence; new indexes, constraints and relationships come after the old ones.
- `Table.Trims t t'`: `t'` keeps some entries of `t`, in their order, and adds none.

Both also keep a gapless table gapless, and both are preorders, so that a run of steps each of
which extends (or trims) every table extends (or trims) it. The lemmas below show this for each
table change the operations make: the changes that add entries extend, those that remove entries
trim, and those that leave every id and number in place (`Table.layout`) do both.
-/

namespace SchemaDesign

/-! ## Lists -/

section Lists

variable {α β : Type}

/-- The places `pos` gives the items are 1, 2, … in list order. -/
def Numbered (pos : α → Nat) (xs : List α) : Prop :=
  xs.map pos = List.range' 1 xs.length

theorem Numbered.append_singleton {pos : α → Nat} {xs : List α} {x : α} (h : Numbered pos xs)
    (hx : pos x = xs.length + 1) : Numbered pos (xs ++ [x]) := by
  unfold Numbered at h ⊢
  rw [List.map_append, h, List.length_append, List.length_singleton, List.range'_concat]
  simp [hx, Nat.add_comm]

/-- Lists that carry the same numbers are numbered alike. -/
theorem Numbered.of_map_eq {pos : α → Nat} {xs ys : List α} (h : Numbered pos ys)
    (heq : xs.map pos = ys.map pos) : Numbered pos xs := by
  unfold Numbered at h ⊢
  have hlen : xs.length = ys.length := by simpa using congrArg List.length heq
  rw [heq, h, hlen]

/-- Renumbering numbers a list. -/
theorem numbered_renumber {set : α → Nat → α} {pos : α → Nat} (hset : ∀ x n, pos (set x n) = n)
    (xs : List α) : Numbered pos (renumber set xs) := by
  unfold Numbered renumber
  rw [List.map_map, List.length_map, List.length_zipIdx, ← List.zipIdx_map_snd 1 xs]
  exact List.map_congr_left fun p _ => hset p.1 p.2

/-- Every item after `updateFirst` has a property that every item had and that the image of the
item it changes has. -/
theorem forall_mem_updateFirst {P : α → Prop} {p : α → Bool} {f : α → α} {xs : List α}
    (h : ∀ x ∈ xs, P x) (hf : ∀ x, xs.find? p = some x → P (f x)) :
    ∀ y ∈ updateFirst p f xs, P y := by
  intro y hy
  rcases mem_updateFirst hy with hy | ⟨x, hx, rfl⟩
  · exact h y hy
  · exact hf x hx

theorem forall_mem_append_singleton {P : α → Prop} {xs : List α} {y : α} (h : ∀ x ∈ xs, P x)
    (hy : P y) : ∀ x ∈ xs ++ [y], P x := by
  intro x hx
  rcases List.mem_append.1 hx with hx | hx
  · exact h x hx
  · rw [List.mem_singleton.1 hx]
    exact hy

/-- `ys` begins with one item for each item of `xs`, in order and related to it by `R`; the
items after those were appended. -/
def ExtendsBy (R : α → α → Prop) (xs ys : List α) : Prop :=
  List.Forall₂ R xs (ys.take xs.length)

namespace ExtendsBy

variable {R : α → α → Prop}

theorem of_forall₂ {xs ys : List α} (h : List.Forall₂ R xs ys) (zs : List α) :
    ExtendsBy R xs (ys ++ zs) := by
  unfold ExtendsBy
  rwa [List.take_left' h.length_eq.symm]

theorem refl [Std.Refl R] (xs : List α) : ExtendsBy R xs xs := by
  simpa using of_forall₂ (List.forall₂_refl xs) []

theorem append [Std.Refl R] (xs zs : List α) : ExtendsBy R xs (xs ++ zs) :=
  of_forall₂ (List.forall₂_refl xs) zs

theorem trans [IsTrans α R] {xs ys zs : List α} (h₁ : ExtendsBy R xs ys) (h₂ : ExtendsBy R ys zs) :
    ExtendsBy R xs zs := by
  unfold ExtendsBy at *
  -- the first `xs.length` items of `ys` sit at the front of `zs`'s own prefix
  have hlen : xs.length ≤ ys.length := by
    have := h₁.length_eq
    rw [List.length_take] at this
    omega
  have h₃ := List.forall₂_take xs.length h₂
  rw [List.take_take, Nat.min_eq_left hlen] at h₃
  exact forall₂_trans (fun _ _ _ => IsTrans.trans _ _ _) h₁ h₃

end ExtendsBy

theorem extendsBy_updateFirst {g : α → β} {S : β → β → Prop} [Std.Refl S] {p : α → Bool}
    {f : α → α} (xs : List α) (hf : ∀ x, xs.find? p = some x → S (g x) (g (f x))) :
    ExtendsBy S (xs.map g) ((updateFirst p f xs).map g) := by
  have h : List.Forall₂ (fun a b => S (g a) (g b)) xs (updateFirst p f xs) :=
    forall₂_updateFirst (fun a => Std.Refl.refl (g a)) p f xs hf
  have h' := ExtendsBy.of_forall₂ (List.forall₂_map_left_iff.2 (List.forall₂_map_right_iff.2 h)) []
  rwa [List.append_nil] at h'

theorem sublistForall₂_of_forall₂ {g : α → β} {S : β → β → Prop} [Std.Refl S] [IsTrans β S]
    {xs zs ys : List α} (hz : List.Forall₂ (fun z x => S (g z) (g x)) zs xs)
    (hy : ys.Sublist zs) : List.SublistForall₂ S (ys.map g) (xs.map g) :=
  IsTrans.trans _ _ _ (hy.map g).sublistForall₂
    (List.sublistForall₂_iff.2
      ⟨_, List.forall₂_map_left_iff.2 (List.forall₂_map_right_iff.2 hz), List.Sublist.refl _⟩)

theorem forall₂_map_self {S : α → α → Prop} {f : α → α} {xs : List α} (hf : ∀ x ∈ xs, S (f x) x) :
    List.Forall₂ S (xs.map f) xs :=
  List.forall₂_map_left_iff.2 (List.forall₂_same.2 hf)

theorem forall₂_updateFirst_self {S : α → α → Prop} [Std.Refl S] {p : α → Bool} {f : α → α}
    (xs : List α) (hf : ∀ x, xs.find? p = some x → S (f x) x) :
    List.Forall₂ S (updateFirst p f xs) xs :=
  (@forall₂_updateFirst α (flip S) (fun a => (Std.Refl.refl a : S a a)) p f xs hf).flip

end Lists

/-! ## Outlines -/

/-- An index as a sequence: its id and the ids of its entries, in order. -/
def Index.outline (i : Index) : Id × List Id := (i.id, i.columns.map (·.id))

/-- A constraint as a sequence: its id and the ids of its entries, in order. -/
def Constraint.outline (k : Constraint) : Id × List Id := (k.id, k.columns.map (·.id))

/-- A relationship as a sequence: its id and the ids of its mappings, in order. -/
def Relationship.outline (r : Relationship) : Id × List Id := (r.id, r.columns.map (·.id))

/-- `o'` has the id of `o` and its entries in order, with entries appended. -/
def OutlineGrows (o o' : Id × List Id) : Prop := o'.1 = o.1 ∧ o.2 <+: o'.2

/-- `o'` has the id of `o` and some of its entries, in their order. -/
def OutlineShrinks (o' o : Id × List Id) : Prop := o'.1 = o.1 ∧ List.Sublist o'.2 o.2

instance : Std.Refl OutlineGrows := ⟨fun _ => ⟨rfl, List.prefix_refl _⟩⟩

instance : IsTrans (Id × List Id) OutlineGrows :=
  ⟨fun _ _ _ h₁ h₂ => ⟨h₂.1.trans h₁.1, h₁.2.trans h₂.2⟩⟩

instance : Std.Refl OutlineShrinks := ⟨fun _ => ⟨rfl, List.Sublist.refl _⟩⟩

instance : IsTrans (Id × List Id) OutlineShrinks :=
  ⟨fun _ _ _ h₁ h₂ => ⟨h₁.1.trans h₂.1, h₁.2.trans h₂.2⟩⟩

theorem outlineGrows_append (i : Id) (xs ys : List Id) : OutlineGrows (i, xs) (i, xs ++ ys) :=
  ⟨rfl, List.prefix_append xs ys⟩

/-! Renumbering numbers each kind of sequence, and keeps its ids in order. -/

theorem numbered_renumberColumns (cs : List Column) :
    Numbered (·.ordinalPosition) (renumber (fun c n => { c with ordinalPosition := n }) cs) :=
  @numbered_renumber _ (fun c n => { c with ordinalPosition := n }) _ (fun _ _ => rfl) cs

theorem numbered_renumberIndexColumns (cs : List IndexColumn) :
    Numbered (·.seqNo) (renumber (fun c n => { c with seqNo := n }) cs) :=
  @numbered_renumber _ (fun c n => { c with seqNo := n }) _ (fun _ _ => rfl) cs

theorem numbered_renumberConstraintColumns (cs : List ConstraintColumn) :
    Numbered (·.seqNo) (renumber (fun c n => { c with seqNo := n }) cs) :=
  @numbered_renumber _ (fun c n => { c with seqNo := n }) _ (fun _ _ => rfl) cs

theorem numbered_renumberMappings (ms : List KeyMapping) :
    Numbered (·.seqNo) (renumber (fun m n => { m with seqNo := n }) ms) :=
  @numbered_renumber _ (fun m n => { m with seqNo := n }) _ (fun _ _ => rfl) ms


theorem Index.outlineShrinks_renumber (i : Index) (q : IndexColumn → Bool) :
    OutlineShrinks
      ({ i with columns := renumber (fun c n => { c with seqNo := n }) (i.columns.filter q) } :
        Index).outline i.outline := by
  refine ⟨rfl, ?_⟩
  simp only [Index.outline]
  rw [@map_renumber IndexColumn Id (fun c n => { c with seqNo := n }) (·.id) (fun _ _ => rfl)]
  exact List.filter_sublist.map _

theorem Constraint.outlineShrinks_renumber (k : Constraint) (q : ConstraintColumn → Bool) :
    OutlineShrinks
      ({ k with columns := renumber (fun c n => { c with seqNo := n }) (k.columns.filter q) } :
        Constraint).outline k.outline := by
  refine ⟨rfl, ?_⟩
  simp only [Constraint.outline]
  rw [@map_renumber ConstraintColumn Id (fun c n => { c with seqNo := n }) (·.id) (fun _ _ => rfl)]
  exact List.filter_sublist.map _

theorem Relationship.outlineShrinks_renumber (r : Relationship) (q : KeyMapping → Bool) :
    OutlineShrinks
      ({ r with columns := renumber (fun m n => { m with seqNo := n }) (r.columns.filter q) } :
        Relationship).outline r.outline := by
  refine ⟨rfl, ?_⟩
  simp only [Relationship.outline]
  rw [@map_renumber KeyMapping Id (fun m n => { m with seqNo := n }) (·.id) (fun _ _ => rfl)]
  exact List.filter_sublist.map _

/-! ## Gapless tables -/

/-- Every sequence of the table is numbered 1, 2, … in list order. -/
structure Table.Gapless (t : Table) : Prop where
  columns : Numbered (·.ordinalPosition) t.columns
  indexes : ∀ i ∈ t.indexes, Numbered (·.seqNo) i.columns
  constraints : ∀ k ∈ t.constraints, Numbered (·.seqNo) k.columns
  relationships : ∀ r ∈ t.relationships, Numbered (·.seqNo) r.columns

/-- Every table of the snapshot is gapless. -/
def Database.Gapless (db : Database) : Prop := ∀ s ∈ db.schemas, ∀ t ∈ s.tables, t.Gapless

/-! ## Extending and trimming a table -/

/-- `t'` is `t` with entries appended: every sequence of `t` is kept in place, with entries after
it; the indexes, constraints and relationships of `t` come first, in order, with no entry lost;
and `t'` is gapless when `t` is. -/
structure Table.Extends (t t' : Table) : Prop where
  id : t'.id = t.id
  columns : t.columns.map (·.id) <+: t'.columns.map (·.id)
  indexes : ExtendsBy OutlineGrows (t.indexes.map (·.outline)) (t'.indexes.map (·.outline))
  constraints : ExtendsBy OutlineGrows (t.constraints.map (·.outline))
    (t'.constraints.map (·.outline))
  relationships : ExtendsBy OutlineGrows (t.relationships.map (·.outline))
    (t'.relationships.map (·.outline))
  gapless : t.Gapless → t'.Gapless

/-- `t'` is `t` with entries removed: every sequence of `t'` is a part of the one of `t`, in
order, and so are its indexes, constraints and relationships; and `t'` is gapless when `t` is. -/
structure Table.Trims (t t' : Table) : Prop where
  id : t'.id = t.id
  columns : List.Sublist (t'.columns.map (·.id)) (t.columns.map (·.id))
  indexes : List.SublistForall₂ OutlineShrinks (t'.indexes.map (·.outline))
    (t.indexes.map (·.outline))
  constraints : List.SublistForall₂ OutlineShrinks (t'.constraints.map (·.outline))
    (t.constraints.map (·.outline))
  relationships : List.SublistForall₂ OutlineShrinks (t'.relationships.map (·.outline))
    (t.relationships.map (·.outline))
  gapless : t.Gapless → t'.Gapless

namespace Table

theorem Extends.refl (t : Table) : t.Extends t :=
  ⟨rfl, List.prefix_refl _, ExtendsBy.refl _, ExtendsBy.refl _, ExtendsBy.refl _, fun h => h⟩

theorem Extends.trans {t₁ t₂ t₃ : Table} (h₁ : t₁.Extends t₂) (h₂ : t₂.Extends t₃) :
    t₁.Extends t₃ :=
  ⟨h₂.id.trans h₁.id, h₁.columns.trans h₂.columns, h₁.indexes.trans h₂.indexes,
    h₁.constraints.trans h₂.constraints, h₁.relationships.trans h₂.relationships,
    h₂.gapless ∘ h₁.gapless⟩

instance : IsPreorder Table Extends where
  refl := Extends.refl
  trans _ _ _ := Extends.trans

theorem Trims.refl (t : Table) : t.Trims t :=
  ⟨rfl, List.Sublist.refl _, Std.Refl.refl _, Std.Refl.refl _, Std.Refl.refl _, fun h => h⟩

theorem Trims.trans {t₁ t₂ t₃ : Table} (h₁ : t₁.Trims t₂) (h₂ : t₂.Trims t₃) : t₁.Trims t₃ :=
  ⟨h₂.id.trans h₁.id, h₂.columns.trans h₁.columns,
    IsTrans.trans _ _ _ h₂.indexes h₁.indexes, IsTrans.trans _ _ _ h₂.constraints h₁.constraints,
    IsTrans.trans _ _ _ h₂.relationships h₁.relationships, h₂.gapless ∘ h₁.gapless⟩

instance : IsPreorder Table Trims where
  refl := Trims.refl
  trans _ _ _ := Trims.trans

/-! ## Changes that keep every id and number -/

/-- A table's sequences as the relations above read them: its id, the id and place of each
column, and each index, constraint and relationship as its id with the id and place of each of
its entries. -/
def layout (t : Table) : Id × List (Id × Nat) × List (Id × List (Id × Nat)) ×
    List (Id × List (Id × Nat)) × List (Id × List (Id × Nat)) :=
  (t.id, t.columns.map (fun c => (c.id, c.ordinalPosition)),
    t.indexes.map (fun i => (i.id, i.columns.map fun e => (e.id, e.seqNo))),
    t.constraints.map (fun k => (k.id, k.columns.map fun e => (e.id, e.seqNo))),
    t.relationships.map (fun r => (r.id, r.columns.map fun m => (m.id, m.seqNo))))

section Layout

variable {α β : Type} {key : α → Id} {ents : α → List β} {eid : β → Id} {seq : β → Nat}
  {xs ys : List α}

theorem outlines_eq_of_layout
    (h : ys.map (fun a => (key a, (ents a).map fun e => (eid e, seq e))) =
      xs.map (fun a => (key a, (ents a).map fun e => (eid e, seq e)))) :
    ys.map (fun a => (key a, (ents a).map eid)) = xs.map (fun a => (key a, (ents a).map eid)) := by
  have := congrArg (List.map fun p : Id × List (Id × Nat) => (p.1, p.2.map Prod.fst)) h
  simpa [List.map_map, Function.comp_def] using this

/-- Items with the same ids and numbered entries are numbered alike. -/
theorem numbered_of_layout
    (h : ys.map (fun a => (key a, (ents a).map fun e => (eid e, seq e))) =
      xs.map (fun a => (key a, (ents a).map fun e => (eid e, seq e))))
    (hx : ∀ a ∈ xs, Numbered seq (ents a)) : ∀ b ∈ ys, Numbered seq (ents b) := by
  intro b hb
  have hmem : (key b, (ents b).map fun e => (eid e, seq e)) ∈
      xs.map (fun a => (key a, (ents a).map fun e => (eid e, seq e))) :=
    h ▸ List.mem_map_of_mem hb
  obtain ⟨a, ha, hab⟩ := List.mem_map.1 hmem
  refine (hx a ha).of_map_eq ?_
  have := congrArg (fun p : Id × List (Id × Nat) => p.2.map Prod.snd) hab
  simpa [List.map_map, Function.comp_def] using this.symm

end Layout

theorem Gapless.of_layout {t t' : Table} (h : t'.layout = t.layout) (hg : t.Gapless) :
    t'.Gapless := by
  simp only [layout, Prod.mk.injEq] at h
  obtain ⟨-, hc, hi, hk, hr⟩ := h
  refine ⟨hg.columns.of_map_eq ?_, numbered_of_layout hi hg.indexes,
    numbered_of_layout hk hg.constraints, numbered_of_layout hr hg.relationships⟩
  simpa [List.map_map, Function.comp_def] using congrArg (List.map Prod.snd) hc

/-- The ids a layout holds. -/
theorem outlines_of_layout {t t' : Table} (h : t'.layout = t.layout) :
    t'.id = t.id ∧ t'.columns.map (·.id) = t.columns.map (·.id) ∧
      t'.indexes.map (·.outline) = t.indexes.map (·.outline) ∧
      t'.constraints.map (·.outline) = t.constraints.map (·.outline) ∧
      t'.relationships.map (·.outline) = t.relationships.map (·.outline) := by
  simp only [layout, Prod.mk.injEq] at h
  obtain ⟨hid, hc, hi, hk, hr⟩ := h
  refine ⟨hid, ?_, outlines_eq_of_layout hi, outlines_eq_of_layout hk, outlines_eq_of_layout hr⟩
  simpa [List.map_map, Function.comp_def] using congrArg (List.map Prod.fst) hc

theorem Extends.of_layout {t t' : Table} (h : t'.layout = t.layout) : t.Extends t' := by
  obtain ⟨hid, hc, hi, hk, hr⟩ := outlines_of_layout h
  exact ⟨hid, hc ▸ List.prefix_refl _, hi ▸ ExtendsBy.refl _, hk ▸ ExtendsBy.refl _,
    hr ▸ ExtendsBy.refl _, Gapless.of_layout h⟩

theorem Trims.of_layout {t t' : Table} (h : t'.layout = t.layout) : t.Trims t' := by
  obtain ⟨hid, hc, hi, hk, hr⟩ := outlines_of_layout h
  exact ⟨hid, hc ▸ List.Sublist.refl _, hi ▸ Std.Refl.refl _, hk ▸ Std.Refl.refl _,
    hr ▸ Std.Refl.refl _, Gapless.of_layout h⟩

theorem layout_updateColumn (t : Table) (cid : Id) {f : Column → Column}
    (hf : ∀ c, (f c).id = c.id ∧ (f c).ordinalPosition = c.ordinalPosition) :
    (t.updateColumn cid f).layout = t.layout := by
  simp only [layout, updateColumn, Prod.mk.injEq, and_true, true_and]
  exact map_updateFirst_of_key _ fun c _ => by rw [(hf c).1, (hf c).2]

theorem layout_updateIndex (t : Table) (iid : Id) {f : Index → Index}
    (hf : ∀ i, (f i).id = i.id ∧
      (f i).columns.map (fun e => (e.id, e.seqNo)) = i.columns.map (fun e => (e.id, e.seqNo))) :
    (t.updateIndex iid f).layout = t.layout := by
  simp only [layout, updateIndex, Prod.mk.injEq, and_true, true_and]
  exact map_updateFirst_of_key _ fun i _ => by rw [(hf i).1, (hf i).2]

theorem layout_updateConstraint (t : Table) (kid : Id) {f : Constraint → Constraint}
    (hf : ∀ k, (f k).id = k.id ∧
      (f k).columns.map (fun e => (e.id, e.seqNo)) = k.columns.map (fun e => (e.id, e.seqNo))) :
    (t.updateConstraint kid f).layout = t.layout := by
  simp only [layout, updateConstraint, Prod.mk.injEq, and_true, true_and]
  exact map_updateFirst_of_key _ fun k _ => by rw [(hf k).1, (hf k).2]

theorem layout_changeRelationship (t : Table) (rid : Id) {f : Relationship → Relationship}
    (hf : ∀ r, (f r).id = r.id ∧ (f r).columns = r.columns) :
    (t.changeRelationship rid f).layout = t.layout := by
  simp only [layout, changeRelationship, Prod.mk.injEq, true_and]
  exact map_updateFirst_of_key _ fun r _ => by rw [(hf r).1, (hf r).2]

/-! ## Changes that add entries -/

theorem Gapless.withColumns {t : Table} (h : t.Gapless) (cs : List Column) :
    ({ t with columns := cs } : Table).resequenceColumns.Gapless :=
  ⟨numbered_renumberColumns cs, h.indexes, h.constraints, h.relationships⟩

theorem resequenceColumns_columnIds (t : Table) :
    t.resequenceColumns.columns.map (·.id) = t.columns.map (·.id) :=
  @map_renumber Column Id (fun c n => { c with ordinalPosition := n }) (·.id) (fun _ _ => rfl) t.columns

/-- A column appended and the columns renumbered. -/
theorem extends_appendColumn (t : Table) (c : Column) :
    t.Extends ({ t with columns := t.columns ++ [c] } : Table).resequenceColumns where
  id := rfl
  columns := by
    rw [resequenceColumns_columnIds, List.map_append]
    exact List.prefix_append _ _
  indexes := ExtendsBy.refl _
  constraints := ExtendsBy.refl _
  relationships := ExtendsBy.refl _
  gapless h := h.withColumns _

theorem extends_appendIndex (t : Table) {i : Index} (hi : Numbered (·.seqNo) i.columns) :
    t.Extends { t with indexes := t.indexes ++ [i] } where
  id := rfl
  columns := List.prefix_refl _
  indexes := by
    rw [List.map_append]
    exact ExtendsBy.append _ _
  constraints := ExtendsBy.refl _
  relationships := ExtendsBy.refl _
  gapless h := ⟨h.columns, forall_mem_append_singleton h.indexes hi, h.constraints, h.relationships⟩

theorem extends_appendConstraint (t : Table) {k : Constraint}
    (hk : Numbered (·.seqNo) k.columns) : t.Extends { t with constraints := t.constraints ++ [k] } where
  id := rfl
  columns := List.prefix_refl _
  indexes := ExtendsBy.refl _
  constraints := by
    rw [List.map_append]
    exact ExtendsBy.append _ _
  relationships := ExtendsBy.refl _
  gapless h := ⟨h.columns, h.indexes, forall_mem_append_singleton h.constraints hk, h.relationships⟩

theorem extends_appendRelationship (t : Table) {r : Relationship}
    (hr : Numbered (·.seqNo) r.columns) :
    t.Extends { t with relationships := t.relationships ++ [r] } where
  id := rfl
  columns := List.prefix_refl _
  indexes := ExtendsBy.refl _
  constraints := ExtendsBy.refl _
  relationships := by
    rw [List.map_append]
    exact ExtendsBy.append _ _
  gapless h := ⟨h.columns, h.indexes, h.constraints, forall_mem_append_singleton h.relationships hr⟩

/-- An entry appended to an index, numbered after the others. -/
theorem extends_appendIndexEntry (t : Table) (iid eid cid : Id) (dir : SortDir) :
    t.Extends (t.updateIndex iid fun i =>
      { i with columns := i.columns ++ [⟨eid, cid, i.columns.length + 1, dir⟩] }) where
  id := rfl
  columns := List.prefix_refl _
  indexes := extendsBy_updateFirst _ fun i _ => by
    simpa [Index.outline] using outlineGrows_append i.id (i.columns.map (·.id)) [eid]
  constraints := ExtendsBy.refl _
  relationships := ExtendsBy.refl _
  gapless h := ⟨h.columns, forall_mem_updateFirst h.indexes fun i hi =>
    (h.indexes i (List.mem_of_find?_eq_some hi)).append_singleton rfl, h.constraints,
    h.relationships⟩

/-- An entry appended to a constraint, numbered after the others. -/
theorem extends_appendConstraintEntry (t : Table) (kid eid cid : Id) :
    t.Extends (t.updateConstraint kid fun k =>
      { k with columns := k.columns ++ [⟨eid, cid, k.columns.length + 1⟩] }) where
  id := rfl
  columns := List.prefix_refl _
  indexes := ExtendsBy.refl _
  constraints := extendsBy_updateFirst _ fun k _ => by
    simpa [Constraint.outline] using outlineGrows_append k.id (k.columns.map (·.id)) [eid]
  relationships := ExtendsBy.refl _
  gapless h := ⟨h.columns, h.indexes, forall_mem_updateFirst h.constraints fun k hk =>
    (h.constraints k (List.mem_of_find?_eq_some hk)).append_singleton rfl, h.relationships⟩

/-- A mapping appended to a relationship, numbered after the others. -/
theorem extends_appendMapping (t : Table) (rid mid fk pk : Id) :
    t.Extends { t with relationships := (updateFirst (·.id = rid)
      (fun r => { r with columns := r.columns ++ [⟨mid, fk, pk, r.columns.length + 1⟩] })
      t.relationships) } where
  id := rfl
  columns := List.prefix_refl _
  indexes := ExtendsBy.refl _
  constraints := ExtendsBy.refl _
  relationships := extendsBy_updateFirst _ fun r _ => by
    simpa [Relationship.outline] using outlineGrows_append r.id (r.columns.map (·.id)) [mid]
  gapless h := ⟨h.columns, h.indexes, h.constraints, forall_mem_updateFirst h.relationships
    fun r hr => (h.relationships r (List.mem_of_find?_eq_some hr)).append_singleton rfl⟩

/-- The primary key replaced by a grown key. -/
theorem extends_replaceKey {t : Table} {pk pk' : Constraint} (hpk : t.primaryKey? = some pk)
    (hg : OutlineGrows pk.outline pk'.outline)
    (hn : Numbered (·.seqNo) pk.columns → Numbered (·.seqNo) pk'.columns) :
    t.Extends { t with constraints :=
      (updateFirst (·.kind = .primaryKey) (fun _ => pk') t.constraints) } where
  id := rfl
  columns := List.prefix_refl _
  indexes := ExtendsBy.refl _
  constraints := extendsBy_updateFirst _ fun k hk => by
    obtain rfl : k = pk := Option.some.inj (hk.symm.trans hpk)
    exact hg
  relationships := ExtendsBy.refl _
  gapless h := ⟨h.columns, h.indexes, forall_mem_updateFirst h.constraints fun k hk => by
    obtain rfl : k = pk := Option.some.inj (hk.symm.trans hpk)
    exact hn (h.constraints k (List.mem_of_find?_eq_some hk)), h.relationships⟩

/-! ## Columns put in place -/

/-- The table with column `c` put at the 0-based place `i` and the columns renumbered. -/
def insertColumn (i : Nat) (c : Column) (t : Table) : Table :=
  ({ t with columns := insertAt t.columns i c } : Table).resequenceColumns

/-- The table with column `c` taken from where it was and put at the 0-based place `i`, and the
columns renumbered. -/
def moveColumn (c : Column) (i : Nat) (t : Table) : Table :=
  ({ t with columns := insertAt (t.columns.eraseP (·.id = c.id)) i c } : Table).resequenceColumns

theorem map_insertAt {α β : Type} (f : α → β) (xs : List α) (i : Nat) (x : α) :
    (insertAt xs i x).map f = insertAt (xs.map f) i (f x) := by
  simp [insertAt, List.map_take, List.map_drop]

theorem columnIds_insertColumn (t : Table) (i : Nat) (c : Column) :
    (t.insertColumn i c).columns.map (·.id) = insertAt (t.columns.map (·.id)) i c.id := by
  rw [insertColumn, resequenceColumns_columnIds, map_insertAt]

theorem columnIds_moveColumn (t : Table) (c : Column) (i : Nat) :
    (t.moveColumn c i).columns.map (·.id) =
      insertAt ((t.columns.eraseP (·.id = c.id)).map (·.id)) i c.id := by
  rw [moveColumn, resequenceColumns_columnIds, map_insertAt]

theorem Gapless.insertColumn {t : Table} (h : t.Gapless) (i : Nat) (c : Column) :
    (t.insertColumn i c).Gapless :=
  h.withColumns _

theorem Gapless.moveColumn {t : Table} (h : t.Gapless) (c : Column) (i : Nat) :
    (t.moveColumn c i).Gapless :=
  h.withColumns _

/-! ## Changes that remove entries -/

theorem pruneRedundantKeys_indexes (t : Table) :
    t.pruneRedundantKeys.indexes = dedupBy Index.signature t.indexes := by
  unfold pruneRedundantKeys
  dsimp only
  rw [dropRestatingKeys_eq]

theorem trims_pruneRedundantKeys (t : Table) : t.Trims t.pruneRedundantKeys where
  id := pruneRedundantKeys_id t
  columns := by rw [pruneRedundantKeys_columns]
  indexes := by
    rw [pruneRedundantKeys_indexes]
    exact ((dedupBy_sublist _ _).map _).sublistForall₂
  constraints := ((pruneRedundantKeys_constraints_sublist t).map _).sublistForall₂
  relationships := by
    rw [pruneRedundantKeys_relationships]
    exact Std.Refl.refl _
  gapless h := by
    refine ⟨by rw [pruneRedundantKeys_columns]; exact h.columns, fun i hi => ?_, fun k hk => ?_,
      by rw [pruneRedundantKeys_relationships]; exact h.relationships⟩
    · rw [pruneRedundantKeys_indexes] at hi
      exact h.indexes i ((dedupBy_sublist _ _).subset hi)
    · exact h.constraints k ((pruneRedundantKeys_constraints_sublist t).subset hk)

/-- Detaching a column: the column goes, and every entry on it; what remains is renumbered, and
indexes, constraints and relationships left empty or redundant go. -/
theorem trims_detachColumn (t : Table) (c : Id) : t.Trims (t.detachColumn c).1 := by
  unfold detachColumn
  split
  · refine Trims.trans ?_ (trims_pruneRedundantKeys _)
    refine ⟨rfl, ?_, ?_, ?_, ?_, fun h => ⟨numbered_renumberColumns _, ?_, ?_, ?_⟩⟩
    · dsimp only
      rw [@map_renumber Column Id (fun c n => { c with ordinalPosition := n }) (·.id) (fun _ _ => rfl)]
      exact List.eraseP_sublist.map _
    · exact sublistForall₂_of_forall₂
        (forall₂_map_self fun i _ => Index.outlineShrinks_renumber i _) List.filter_sublist
    · exact sublistForall₂_of_forall₂
        (forall₂_map_self fun k _ => Constraint.outlineShrinks_renumber k _) List.filter_sublist
    · exact sublistForall₂_of_forall₂
        (forall₂_map_self fun r _ => Relationship.outlineShrinks_renumber r _) List.filter_sublist
    -- every entry list left was renumbered
    · intro i hi
      obtain ⟨y, -, rfl⟩ := List.mem_map.1 (List.mem_filter.1 hi).1
      exact numbered_renumberIndexColumns _
    · intro k hk
      obtain ⟨y, -, rfl⟩ := List.mem_map.1 (List.mem_filter.1 hk).1
      exact numbered_renumberConstraintColumns _
    · intro r hr
      obtain ⟨y, -, rfl⟩ := List.mem_map.1 (List.mem_filter.1 hr).1
      exact numbered_renumberMappings _
  · exact Trims.refl t

theorem trims_foldl_detachColumn : ∀ (cs : List Id) (t : Table),
    t.Trims (cs.foldl (fun t c => (t.detachColumn c).1) t)
  | [], t => Trims.refl t
  | c :: cs, t => (trims_detachColumn t c).trans (trims_foldl_detachColumn cs _)

/-- Dropping the mappings from `fk` to `key` of one relationship, and the relationship once it has
none. -/
theorem trims_dropLink (t : Table) (rid fk key : Id) : t.Trims (t.dropLink rid fk key) where
  id := rfl
  columns := List.Sublist.refl _
  indexes := Std.Refl.refl _
  constraints := Std.Refl.refl _
  relationships := sublistForall₂_of_forall₂
    (forall₂_updateFirst_self _ fun r _ => Relationship.outlineShrinks_renumber r _)
    List.filter_sublist
  gapless h := ⟨h.columns, h.indexes, h.constraints, fun r hr =>
    forall_mem_updateFirst h.relationships (fun _ _ => numbered_renumberMappings _) r
      (List.mem_filter.1 hr).1⟩

/-- One relationship changed by a trim of it, and relationships left without mappings dropped. -/
theorem trims_editRelationship (t : Table) (rid mid : Id) :
    t.Trims (t.editRelationship rid (·.withoutMapping mid)) where
  id := rfl
  columns := List.Sublist.refl _
  indexes := Std.Refl.refl _
  constraints := Std.Refl.refl _
  relationships := by
    refine sublistForall₂_of_forall₂ (forall₂_map_self fun r _ => ?_) List.filter_sublist
    split
    · exact Relationship.outlineShrinks_renumber r _
    · exact Std.Refl.refl _
  gapless h := ⟨h.columns, h.indexes, h.constraints, fun r hr => by
    obtain ⟨r₀, hr₀, rfl⟩ := List.mem_map.1 (List.mem_filter.1 hr).1
    split
    · exact numbered_renumberMappings _
    · exact h.relationships r₀ hr₀⟩

theorem trims_eraseRelationship (t : Table) (p : Relationship → Bool) :
    t.Trims { t with relationships := t.relationships.eraseP p } where
  id := rfl
  columns := List.Sublist.refl _
  indexes := Std.Refl.refl _
  constraints := Std.Refl.refl _
  relationships := (List.eraseP_sublist.map _).sublistForall₂
  gapless h := ⟨h.columns, h.indexes, h.constraints,
    fun r hr => h.relationships r (List.eraseP_sublist.subset hr)⟩

theorem trims_filterIndexes (t : Table) (p : Index → Bool) :
    t.Trims { t with indexes := t.indexes.filter p } where
  id := rfl
  columns := List.Sublist.refl _
  indexes := (List.filter_sublist.map _).sublistForall₂
  constraints := Std.Refl.refl _
  relationships := Std.Refl.refl _
  gapless h := ⟨h.columns, fun i hi => h.indexes i (List.mem_filter.1 hi).1, h.constraints,
    h.relationships⟩

theorem trims_filterConstraints (t : Table) (p : Constraint → Bool) :
    t.Trims { t with constraints := t.constraints.filter p } where
  id := rfl
  columns := List.Sublist.refl _
  indexes := Std.Refl.refl _
  constraints := (List.filter_sublist.map _).sublistForall₂
  relationships := Std.Refl.refl _
  gapless h := ⟨h.columns, h.indexes, fun k hk => h.constraints k (List.mem_filter.1 hk).1,
    h.relationships⟩

/-- The index found replaced by a renumbered part of it. -/
theorem trims_updateIndex {t : Table} {iid : Id} {f : Index → Index}
    (hf : ∀ i, t.indexes.find? (·.id = iid) = some i →
      OutlineShrinks (f i).outline i.outline ∧ Numbered (·.seqNo) (f i).columns) :
    t.Trims (t.updateIndex iid f) where
  id := rfl
  columns := List.Sublist.refl _
  indexes := sublistForall₂_of_forall₂ (forall₂_updateFirst_self _ fun i hi => (hf i hi).1)
    (List.Sublist.refl _)
  constraints := Std.Refl.refl _
  relationships := Std.Refl.refl _
  gapless h := ⟨h.columns, forall_mem_updateFirst h.indexes fun i hi => (hf i hi).2,
    h.constraints, h.relationships⟩

/-- The constraint found replaced by a renumbered part of it. -/
theorem trims_updateConstraint {t : Table} {kid : Id} {f : Constraint → Constraint}
    (hf : ∀ k, t.constraints.find? (·.id = kid) = some k →
      OutlineShrinks (f k).outline k.outline ∧ Numbered (·.seqNo) (f k).columns) :
    t.Trims (t.updateConstraint kid f) where
  id := rfl
  columns := List.Sublist.refl _
  indexes := Std.Refl.refl _
  constraints := sublistForall₂_of_forall₂ (forall₂_updateFirst_self _ fun k hk => (hf k hk).1)
    (List.Sublist.refl _)
  relationships := Std.Refl.refl _
  gapless h := ⟨h.columns, h.indexes, forall_mem_updateFirst h.constraints fun k hk => (hf k hk).2,
    h.relationships⟩

/-- Columns taken out of every primary key, emptied keys dropped, and redundant keys pruned. -/
theorem trims_removeKeyColumns (t : Table) (cs : List Id) :
    t.Trims ({ t with constraints := ((t.constraints.map fun k =>
      if k.kind = .primaryKey then k.withoutColumns cs else k).filter
        fun k => !(k.kind = .primaryKey && k.columns.isEmpty)) } : Table).pruneRedundantKeys := by
  refine Trims.trans ?_ (trims_pruneRedundantKeys _)
  refine ⟨rfl, List.Sublist.refl _, Std.Refl.refl _, ?_, Std.Refl.refl _,
    fun h => ⟨h.columns, h.indexes, fun k hk => ?_, h.relationships⟩⟩
  · refine sublistForall₂_of_forall₂ (forall₂_map_self fun k _ => ?_) List.filter_sublist
    split
    · exact Constraint.outlineShrinks_renumber k _
    · exact Std.Refl.refl _
  · obtain ⟨k₀, hk₀, rfl⟩ := List.mem_map.1 (List.mem_filter.1 hk).1
    split
    · exact numbered_renumberConstraintColumns _
    · exact h.constraints k₀ hk₀

end Table

end SchemaDesign
