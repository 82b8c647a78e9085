import SchemaDesign.Proofs.Edit.KeyShapes

/-!
# Tables grown by one new column

Creating a column adds parts to a table, and key propagation adds parts to the tables below it:
the column put in at its place, holder columns appended after the others, mappings appended to
relationships, entries appended to the primary key (or to a key created for them), and a
NOT_NULL constraint. `Table.grow t g` is the table `t` with the parts `g` on top, renumbered;
every state a creation or a removal of those parts passes through is of this form.

The algebra of `grow` carries the round trip of a column:

- `Table.grow_of_columnIds_eq_nil`: with no added column left, the grown table is the table;
- `Table.detachColumn_grow`: detaching an added column is `grow` of the parts without it, and
  pruning finds nothing to prune;
- the steps that add a column, a mapping, a key entry or a constraint are `grow` of the parts
  with it (`Table.grow_appendColumn`, `Table.grow_attach`, …).

They rest on the table being `Settled` (what validation gives, with no empty index or
constraint and no UNIQUE constraint restating the key) and on the parts `Fit` it: the added
columns are new, and the added entries and constraints lie on them.
-/

namespace SchemaDesign

/-! ## Renumbering -/

section Renumber

variable {α : Type} {set : α → Nat → α}

/-- Items that every numbering makes equal are renumbered alike. -/
theorem renumber_congr {xs ys : List α}
    (h : List.Forall₂ (fun x y => ∀ n, set x n = set y n) xs ys) :
    renumber set xs = renumber set ys := by
  unfold renumber
  suffices hk : ∀ k, ((xs.zipIdx k).map fun p => set p.1 p.2) =
      (ys.zipIdx k).map fun p => set p.1 p.2 from hk 1
  induction h with
  | nil => exact fun _ => rfl
  | cons hxy _ ih =>
    intro k
    rw [List.zipIdx_cons, List.zipIdx_cons, List.map_cons, List.map_cons, ih (k + 1), hxy k]

/-- A renumbered item is numbered anew like the item. -/
theorem forall₂_renumber (hset : ∀ x n m, set (set x n) m = set x m) (xs : List α) :
    List.Forall₂ (fun x y => ∀ n, set x n = set y n) (renumber set xs) xs := by
  unfold renumber
  suffices hk : ∀ k, List.Forall₂ (fun x y => ∀ n, set x n = set y n)
      ((xs.zipIdx k).map fun p => set p.1 p.2) xs from hk 1
  induction xs with
  | nil => exact fun _ => .nil
  | cons x xs ih =>
    intro k
    rw [List.zipIdx_cons, List.map_cons]
    exact .cons (fun n => hset x k n) (ih (k + 1))

theorem renumber_append_renumber (hset : ∀ x n m, set (set x n) m = set x m) (xs ys : List α) :
    renumber set (renumber set xs ++ ys) = renumber set (xs ++ ys) :=
  renumber_congr (List.rel_append (forall₂_renumber hset xs) (List.forall₂_same.2 fun _ _ _ => rfl))

/-- A filter on which related items agree keeps related items. -/
theorem forall₂_filter {β : Type} {R : α → β → Prop} {p : α → Bool} {q : β → Bool}
    (hpq : ∀ x y, R x y → p x = q y) {xs : List α} {ys : List β} (h : List.Forall₂ R xs ys) :
    List.Forall₂ R (xs.filter p) (ys.filter q) := by
  induction h with
  | nil => exact .nil
  | @cons x y _ _ hxy _ ih =>
    rw [List.filter_cons, List.filter_cons, hpq x y hxy]
    split
    · exact .cons hxy ih
    · exact ih

theorem renumber_filter_renumber (hset : ∀ x n m, set (set x n) m = set x m) {q : α → Bool}
    (hq : ∀ x n, q (set x n) = q x) (xs : List α) :
    renumber set ((renumber set xs).filter q) = renumber set (xs.filter q) := by
  refine renumber_congr (forall₂_filter (fun x y hxy => ?_) (forall₂_renumber hset xs))
  rw [← hq x 0, hxy 0, hq y 0]

/-- A list numbered 1, 2, … in order is its own renumbering. -/
theorem renumber_eq_self {pos : α → Nat} (hfix : ∀ x, set x (pos x) = x) {xs : List α}
    (h : Numbered pos xs) : renumber set xs = xs := by
  unfold Numbered at h
  unfold renumber
  suffices hk : ∀ k, xs.map pos = List.range' k xs.length →
      ((xs.zipIdx k).map fun p => set p.1 p.2) = xs from hk 1 h
  clear h
  induction xs with
  | nil => exact fun _ _ => rfl
  | cons x xs ih =>
    intro k hk
    rw [List.length_cons, List.range'_succ, List.map_cons, List.cons.injEq] at hk
    rw [List.zipIdx_cons, List.map_cons, ih (k + 1) hk.2]
    dsimp only
    rw [← hk.1, hfix x]

theorem renumber_append_singleton (xs : List α) (x : α) :
    renumber set (xs ++ [x]) = renumber set xs ++ [set x (xs.length + 1)] := by
  unfold renumber
  rw [List.zipIdx_append, List.map_append]
  simp [Nat.add_comm]

@[simp]
theorem length_renumber (xs : List α) : (renumber set xs).length = xs.length := by
  simp [renumber]

theorem renumber_eq_nil_iff {xs : List α} : renumber set xs = [] ↔ xs = [] := by
  rw [← List.length_eq_zero_iff, length_renumber, List.length_eq_zero_iff]

theorem exists_of_mem_renumber {xs : List α} {y : α} (hy : y ∈ renumber set xs) :
    ∃ x ∈ xs, ∃ n, y = set x n := by
  unfold renumber at hy
  obtain ⟨p, hp, rfl⟩ := List.mem_map.1 hy
  exact ⟨p.1, List.fst_mem_of_mem_zipIdx hp, p.2, rfl⟩

theorem flatMap_renumber {β : Type} {f : α → List β} (hf : ∀ x n, f (set x n) = f x) (xs : List α) :
    (renumber set xs).flatMap f = xs.flatMap f := by
  rw [List.flatMap_def, List.flatMap_def, map_renumber hf]

end Renumber

/-! ## Grown tables -/

/-- The constraint with entries appended, when it is a primary key, renumbered. -/
def Constraint.withKeyEntries (es : List ConstraintColumn) (k : Constraint) : Constraint :=
  if k.kind = .primaryKey then
    { k with columns := renumber (fun c n => { c with seqNo := n }) (k.columns ++ es) }
  else k

/-- The relationship with the mappings listed under its id appended, renumbered. -/
def Relationship.withMappings (ms : List (Id × KeyMapping)) (r : Relationship) : Relationship :=
  let added := (ms.filter (·.1 = r.id)).map (·.2)
  { r with columns := renumber (fun m n => { m with seqNo := n }) (r.columns ++ added) }

/-- The columns with one put in at a 0-based place, if there is one. -/
def placeColumn (placed : Option (Nat × Column)) (cs : List Column) : List Column :=
  placed.elim cs fun p => insertAt cs p.1 p.2

/-- The parts one column creation adds to a table. -/
structure TableGrowth where
  /-- The new column, with its 0-based place. -/
  placed : Option (Nat × Column) := none
  /-- Holder columns appended after the others. -/
  columns : List Column := []
  /-- Mappings, each with the id of the relationship it is appended to. -/
  mappings : List (Id × KeyMapping) := []
  /-- Entries appended to the primary key. -/
  keyEntries : List ConstraintColumn := []
  /-- Constraints appended: the NOT_NULL constraint of the new column, a key created for the
  entries. -/
  constraints : List Constraint := []

/-- The table with the parts on top, renumbered; an added constraint left without entries is
not there. -/
def Table.grow (t : Table) (g : TableGrowth) : Table :=
  { t with
    columns := renumber (fun c n => { c with ordinalPosition := n })
      (placeColumn g.placed t.columns ++ g.columns)
    constraints := ((t.constraints ++ g.constraints).map (·.withKeyEntries g.keyEntries)).filter
      (!·.columns.isEmpty)
    relationships := t.relationships.map (·.withMappings g.mappings) }

namespace TableGrowth

/-- The ids of the added columns. -/
def columnIds (g : TableGrowth) : List Id := g.placed.toList.map (·.2.id) ++ g.columns.map (·.id)

/-- The parts without the columns `xs` and what lies on them. -/
def without (g : TableGrowth) (xs : List Id) : TableGrowth where
  placed := g.placed.filter (!xs.contains ·.2.id)
  columns := g.columns.filter (!xs.contains ·.id)
  mappings := g.mappings.filter (!xs.contains ·.2.fkColumnId)
  keyEntries := g.keyEntries.filter (!xs.contains ·.columnId)
  constraints := g.constraints.map (·.withoutColumns xs)

end TableGrowth

/-- A table as an accepted snapshot holds it, with no empty index or constraint and no UNIQUE
constraint restating its key. -/
structure Table.Settled (t : Table) : Prop where
  gapless : t.Gapless
  columnIds : (t.columns.map (·.id)).Nodup
  relationshipIds : (t.relationships.map (·.id)).Nodup
  indexes : ∀ i ∈ t.indexes, i.columns ≠ []
  constraints : ∀ k ∈ t.constraints, k.columns ≠ []
  relationships : ∀ r ∈ t.relationships, r.columns ≠ []
  indexSignatures : (t.indexes.map (·.signature)).Nodup
  constraintSignatures : (t.constraints.map (·.signature)).Nodup
  onePrimaryKey : t.constraints.countP (·.isPrimaryKey) ≤ 1
  notRestated : t.uniqueRestatingKey? = none

/-- Parts that fit a table: the added columns are new to it and distinct, and every added
mapping, key entry and constraint entry lies on them; an added constraint is a NOT_NULL
constraint or, on a table with no key, a primary key, one of each kind at most. -/
structure TableGrowth.Fits (g : TableGrowth) (t : Table) : Prop where
  fresh : ∀ x ∈ g.columnIds, x ∉ t.mentionedIds
  nodup : g.columnIds.Nodup
  mappings : ∀ m ∈ g.mappings, m.2.fkColumnId ∈ g.columnIds
  keyEntries : ∀ e ∈ g.keyEntries, e.columnId ∈ g.columnIds
  constraintEntries : ∀ k ∈ g.constraints, ∀ e ∈ k.columns, e.columnId ∈ g.columnIds
  numbered : ∀ k ∈ g.constraints, Numbered (·.seqNo) k.columns
  kinds : ∀ k ∈ g.constraints, k.kind = .notNull ∨ (k.kind = .primaryKey ∧ t.primaryKey? = none)
  kindsNodup : (g.constraints.map (·.kind)).Nodup

/-! ### What a table mentions -/

namespace Table

variable {t : Table}

theorem mentions_column {c : Column} (hc : c ∈ t.columns) : c.id ∈ t.mentionedIds :=
  List.mem_cons_of_mem _ (List.mem_cons_of_mem _ (List.mem_append_left _ (List.mem_append_left _
    (List.mem_append_left _ (List.mem_flatMap.2 ⟨c, hc, List.mem_cons_self⟩)))))

theorem mentions_indexEntry {i : Index} (hi : i ∈ t.indexes) {e : IndexColumn}
    (he : e ∈ i.columns) : e.columnId ∈ t.mentionedIds :=
  List.mem_cons_of_mem _ (List.mem_cons_of_mem _ (List.mem_append_left _ (List.mem_append_left _
    (List.mem_append_right _ (List.mem_flatMap.2 ⟨i, hi, List.mem_cons_of_mem _
      (List.mem_cons_of_mem _ (List.mem_flatMap.2 ⟨e, he, by simp⟩))⟩)))))

theorem mentions_constraintEntry {k : Constraint} (hk : k ∈ t.constraints) {e : ConstraintColumn}
    (he : e ∈ k.columns) : e.columnId ∈ t.mentionedIds :=
  List.mem_cons_of_mem _ (List.mem_cons_of_mem _ (List.mem_append_left _ (List.mem_append_right _
    (List.mem_flatMap.2 ⟨k, hk, List.mem_cons_of_mem _
      (List.mem_cons_of_mem _ (List.mem_flatMap.2 ⟨e, he, by simp⟩))⟩))))

theorem mentions_fkColumn {r : Relationship} (hr : r ∈ t.relationships) {m : KeyMapping}
    (hm : m ∈ r.columns) : m.fkColumnId ∈ t.mentionedIds :=
  List.mem_cons_of_mem _ (List.mem_cons_of_mem _ (List.mem_append_right _
    (List.mem_flatMap.2 ⟨r, hr, List.mem_cons_of_mem _ (List.mem_cons_of_mem _
      (List.mem_cons_of_mem _ (List.mem_flatMap.2 ⟨m, hm, by simp⟩)))⟩)))

theorem mentions_pkColumn {r : Relationship} (hr : r ∈ t.relationships) {m : KeyMapping}
    (hm : m ∈ r.columns) : m.pkColumnId ∈ t.mentionedIds :=
  List.mem_cons_of_mem _ (List.mem_cons_of_mem _ (List.mem_append_right _
    (List.mem_flatMap.2 ⟨r, hr, List.mem_cons_of_mem _ (List.mem_cons_of_mem _
      (List.mem_cons_of_mem _ (List.mem_flatMap.2 ⟨m, hm, by simp⟩)))⟩)))

end Table

/-! ### Entries kept by a removal -/

section Entries

variable {x : Id} {xs : List Id}

theorem Constraint.withoutColumns_of_forall {k : Constraint} (hk : Numbered (·.seqNo) k.columns)
    (hxs : ∀ e ∈ k.columns, e.columnId ∉ xs) : k.withoutColumns xs = k := by
  unfold Constraint.withoutColumns
  dsimp only
  rw [List.filter_eq_self.2 fun e he => by simpa using hxs e he, renumber_eq_self (fun _ => rfl) hk]

theorem Index.withoutColumn_of_forall {i : Index} (hi : Numbered (·.seqNo) i.columns)
    (hx : ∀ e ∈ i.columns, e.columnId ≠ x) : i.withoutColumn x = i := by
  unfold Index.withoutColumn
  dsimp only
  rw [List.filter_eq_self.2 fun e he => by simpa using hx e he, renumber_eq_self (fun _ => rfl) hi]

/-- Removing columns from a key with appended entries removes them from both. -/
theorem Constraint.withKeyEntries_withoutColumns (k : Constraint) (es : List ConstraintColumn)
    (xs : List Id) : (k.withKeyEntries es).withoutColumns xs =
      (k.withoutColumns xs).withKeyEntries (es.filter (!xs.contains ·.columnId)) := by
  unfold Constraint.withKeyEntries Constraint.withoutColumns
  by_cases hk : k.kind = .primaryKey
  · simp only [hk, if_true]
    rw [renumber_filter_renumber, renumber_append_renumber, List.filter_append]
    all_goals intros; rfl
  · simp only [hk, if_false]

/-- Removing a holder column that only appended mappings use removes those mappings. -/
theorem Relationship.withMappings_withoutFkColumn {r : Relationship}
    (hr : ∀ m ∈ r.columns, m.fkColumnId ≠ x) (ms : List (Id × KeyMapping)) :
    (r.withMappings ms).withoutFkColumn x =
      r.withMappings (ms.filter (!([x] : List Id).contains ·.2.fkColumnId)) := by
  unfold Relationship.withoutFkColumn Relationship.withMappings
  dsimp only
  rw [renumber_filter_renumber, List.filter_append,
    List.filter_eq_self.2 fun m hm => by simpa using hr m hm]
  simp only [List.filter_map, List.filter_filter, Function.comp_def, List.contains_cons,
    List.contains_nil, Bool.or_false]
  · congr 4
    refine List.filter_congr fun p _ => ?_
    rw [Bool.and_comm]
    by_cases h : p.2.fkColumnId = x <;> simp [h]
  all_goals intros; rfl

end Entries

/-! ### Pruning a grown table -/

section Pruning

variable {α β : Type}

/-- `dedupBy` keeps a list whose keys are distinct. -/
theorem dedupBy_eq_self [DecidableEq β] {key : α → β} {xs : List α} (h : (xs.map key).Nodup) :
    dedupBy key xs = xs := by
  unfold dedupBy
  -- the fold meets each key for the first time, and keeps each item in front of the others
  suffices hfold : ∀ (ys : List α) (acc : List β × List α), (∀ y ∈ ys, key y ∉ acc.1) →
      (ys.map key).Nodup →
      (ys.foldl (fun (acc : List β × List α) x =>
        if acc.1.contains (key x) then acc else (key x :: acc.1, x :: acc.2)) acc).2 =
        ys.reverse ++ acc.2 by
    rw [hfold xs ([], []) (fun _ _ => List.not_mem_nil) h, List.append_nil, List.reverse_reverse]
  intro ys
  induction ys with
  | nil => exact fun _ _ _ => rfl
  | cons y ys ih =>
    intro acc hnew hnd
    rw [List.map_cons, List.nodup_cons] at hnd
    rw [List.foldl_cons, if_neg (by simpa using hnew y List.mem_cons_self)]
    rw [ih _ (fun z hz => ?_) hnd.2, List.reverse_cons, List.append_assoc, List.singleton_append]
    rw [List.mem_cons, not_or]
    exact ⟨fun he => hnd.1 (he ▸ List.mem_map_of_mem hz), hnew z (List.mem_cons_of_mem y hz)⟩

theorem Table.dropRestatingKeys_of_none {t : Table} (h : t.uniqueRestatingKey? = none) :
    ∀ fuel, dropRestatingKeys fuel t = t
  | 0 => rfl
  | _ + 1 => by
    unfold dropRestatingKeys
    rw [h]

/-- A table with distinct index and constraint definitions and no UNIQUE constraint restating its
key has nothing to prune. -/
theorem Table.pruneRedundantKeys_eq_self {t : Table} (hi : (t.indexes.map (·.signature)).Nodup)
    (hk : (t.constraints.map (·.signature)).Nodup) (hr : t.uniqueRestatingKey? = none) :
    t.pruneRedundantKeys = t := by
  unfold pruneRedundantKeys
  dsimp only
  rw [dedupBy_eq_self hi]
  have hr' : ({ t with indexes := t.indexes } : Table).uniqueRestatingKey? = none := hr
  rw [Table.dropRestatingKeys_of_none hr', dedupBy_eq_self hk]

end Pruning

/-! ### The constraints of a grown table -/

namespace Constraint

variable {k : Constraint} {es : List ConstraintColumn}

@[simp]
theorem withKeyEntries_kind : (k.withKeyEntries es).kind = k.kind := by
  unfold withKeyEntries
  split <;> rfl

theorem withKeyEntries_of_ne (hk : k.kind ≠ .primaryKey) : k.withKeyEntries es = k := by
  unfold withKeyEntries
  rw [if_neg hk]

theorem withKeyEntries_columns_ne_nil (h : k.columns ≠ [] ∨ k.kind = .primaryKey ∧ es ≠ []) :
    (k.withKeyEntries es).columns ≠ [] := by
  unfold withKeyEntries
  split
  · simp only [ne_eq, renumber_eq_nil_iff, List.append_eq_nil_iff, not_and_or]
    exact h.imp (fun h => h) And.right
  · exact h.resolve_right fun h' => ‹¬k.kind = .primaryKey› h'.1

theorem withKeyEntries_columnIds (hk : k.kind = .primaryKey) :
    (k.withKeyEntries es).columnIds = k.columnIds ++ es.map (·.columnId) := by
  unfold withKeyEntries columnIds
  rw [if_pos hk]
  dsimp only
  rw [map_renumber, List.map_append]
  intros
  rfl

end Constraint

namespace Table

variable {t : Table} {g : TableGrowth}

@[simp] theorem grow_id : (t.grow g).id = t.id := rfl
@[simp] theorem grow_schemaId : (t.grow g).schemaId = t.schemaId := rfl
@[simp] theorem grow_name : (t.grow g).name = t.name := rfl
@[simp] theorem grow_indexes : (t.grow g).indexes = t.indexes := rfl

theorem exists_of_mem_grow_constraints {k : Constraint} (hk : k ∈ (t.grow g).constraints) :
    ∃ k₀ ∈ t.constraints ++ g.constraints, k = k₀.withKeyEntries g.keyEntries ∧ k.columns ≠ [] := by
  obtain ⟨hmem, hne⟩ := List.mem_filter.1 hk
  obtain ⟨k₀, hk₀, rfl⟩ := List.mem_map.1 hmem
  exact ⟨k₀, hk₀, rfl, by simpa using hne⟩

theorem not_added_of_mentioned (hg : g.Fits t) {y : Id} (hy : y ∈ t.mentionedIds) :
    y ∉ g.columnIds := fun hadd => hg.fresh y hadd hy

theorem not_sameColumns_of_added (hg : g.Fits t) {u : Constraint} (hu : u ∈ t.constraints)
    {ys : List Id} {y : Id} (hy : y ∈ ys) (hadd : y ∈ g.columnIds) : ¬SameColumns u.columnIds ys := by
  intro hsame
  obtain ⟨e, he, rfl⟩ := List.mem_map.1 ((hsame y).2 hy)
  exact not_added_of_mentioned hg (mentions_constraintEntry hu he) hadd

theorem kind_ne_of_primaryKey?_eq_none (hnone : t.primaryKey? = none) {k : Constraint}
    (hk : k ∈ t.constraints) : k.kind ≠ .primaryKey := by
  have := List.find?_eq_none.1 hnone k hk
  simpa using this

/-- The constraints of a grown table have distinct definitions: the key is the only one to
change, and an added constraint is of a kind the table has none of, or lies on added columns. -/
theorem grow_constraintSignatures (ht : t.Settled) (hg : g.Fits t) :
    ((t.grow g).constraints.map (·.signature)).Nodup := by
  refine List.Nodup.sublist ((List.filter_sublist).map _) ?_
  rw [List.map_map, List.map_append, List.nodup_append]
  refine ⟨?_, ?_, ?_⟩
  · -- among the original constraints only the key changes, and there is one key at most
    refine List.Nodup.map_on (fun k hk k' hk' heq => ?_)
      (List.Nodup.of_map _ ht.constraintSignatures)
    have hkind : k.kind = k'.kind := by
      simpa [Constraint.signature] using congrArg (·.1) heq
    by_cases hpk : k.kind = .primaryKey
    · exact eq_of_countP_le_one ht.onePrimaryKey hk (by simp [Constraint.isPrimaryKey, hpk]) hk'
        (by simp [Constraint.isPrimaryKey, ← hkind, hpk])
    · simp only [Function.comp_apply, Constraint.withKeyEntries_of_ne hpk,
        Constraint.withKeyEntries_of_ne (hkind ▸ hpk)] at heq
      exact List.inj_on_of_nodup_map ht.constraintSignatures hk hk' heq
  · -- the added constraints have distinct kinds
    refine List.Nodup.of_map (·.1) ?_
    rw [List.map_map]
    simpa [Function.comp_def, Constraint.signature] using hg.kindsNodup
  · -- an added key comes on a table without one, an added NOT_NULL lies on added columns
    intro a ha b hb hab
    obtain ⟨k, hk, rfl⟩ := List.mem_map.1 ha
    obtain ⟨k', hk', rfl⟩ := List.mem_map.1 hb
    have hkind : k.kind = k'.kind := by
      simpa [Constraint.signature] using congrArg (·.1) hab
    rcases hg.kinds k' hk' with hnn | ⟨hpk, hnone⟩
    · have hne : k.kind ≠ .primaryKey := by rw [hkind, hnn]; decide
      have hne' : k'.kind ≠ .primaryKey := by rw [hnn]; decide
      simp only [Function.comp_apply, Constraint.withKeyEntries_of_ne hne,
        Constraint.withKeyEntries_of_ne hne'] at hab
      have hcols : k.columnIds = k'.columnIds := by
        simpa [Constraint.signature] using congrArg (·.2.2.2) hab
      obtain ⟨e, he⟩ := List.exists_mem_of_ne_nil _ (ht.constraints k hk)
      have hin : e.columnId ∈ k'.columnIds := hcols ▸ List.mem_map.2 ⟨e, he, rfl⟩
      obtain ⟨e', he', hee⟩ := List.mem_map.1 hin
      exact not_added_of_mentioned hg (mentions_constraintEntry hk he)
        (hee ▸ hg.constraintEntries k' hk' e' he')
    · exact kind_ne_of_primaryKey?_eq_none hnone hk (hkind.trans hpk)

/-- No UNIQUE constraint of a grown table restates its key. -/
theorem grow_keyNotRestated (ht : t.Settled) (hg : g.Fits t) :
    ∀ u ∈ (t.grow g).constraints, u.kind = .unique → ∀ p ∈ (t.grow g).constraints,
      p.kind = .primaryKey → ¬SameColumns u.columnIds p.columnIds := by
  intro u hu hunique p hp hpk
  obtain ⟨u₀, hu₀, rfl, -⟩ := exists_of_mem_grow_constraints hu
  obtain ⟨p₀, hp₀, rfl, hpne⟩ := exists_of_mem_grow_constraints hp
  rw [Constraint.withKeyEntries_kind] at hunique hpk
  rw [Constraint.withKeyEntries_of_ne (by rw [hunique]; decide)]
  -- the UNIQUE constraint is an original one: added constraints are NOT_NULL or keys
  have hu₀t : u₀ ∈ t.constraints := by
    rcases List.mem_append.1 hu₀ with h | h
    · exact h
    · rcases hg.kinds u₀ h with h' | ⟨h', -⟩ <;> simp [h'] at hunique
  rw [Constraint.withKeyEntries_columnIds hpk]
  rcases List.mem_append.1 hp₀ with hp₀t | hp₀g
  · cases hes : g.keyEntries with
    | nil =>
      rw [List.map_nil, List.append_nil]
      exact keyNotRestated_of_uniqueRestatingKey? ht.onePrimaryKey ht.notRestated p₀ hp₀t
        (by simp [Constraint.isPrimaryKey, hpk]) u₀ hu₀t hunique
    | cons e es =>
      exact not_sameColumns_of_added hg hu₀t (List.mem_append_right _ (List.mem_map_of_mem
        (List.mem_cons_self))) (hg.keyEntries e (hes ▸ List.mem_cons_self))
  · -- an added key holds added columns only, and at least one
    have hne : p₀.columnIds ++ g.keyEntries.map (·.columnId) ≠ [] := by
      rw [← Constraint.withKeyEntries_columnIds hpk]
      simpa [Constraint.columnIds] using hpne
    obtain ⟨y, hy⟩ := List.exists_mem_of_ne_nil _ hne
    refine not_sameColumns_of_added hg hu₀t hy ?_
    rcases List.mem_append.1 hy with h | h
    · obtain ⟨e, he, rfl⟩ := List.mem_map.1 h
      exact hg.constraintEntries p₀ hp₀g e he
    · obtain ⟨e, he, rfl⟩ := List.mem_map.1 h
      exact hg.keyEntries e he

theorem grow_uniqueRestatingKey? (ht : t.Settled) (hg : g.Fits t) :
    (t.grow g).uniqueRestatingKey? = none := by
  unfold uniqueRestatingKey?
  split
  · rfl
  · next p hp =>
    refine List.find?_eq_none.2 fun u hu hfound => ?_
    have hpk : p.kind = .primaryKey := by simpa using List.find?_some hp
    simp only [Bool.and_eq_true, decide_eq_true_eq] at hfound
    exact grow_keyNotRestated ht hg u hu hfound.1 p (List.mem_of_find?_eq_some hp) hpk
      (sameItems_iff.1 hfound.2)

/-- Pruning a grown table finds nothing to prune. -/
theorem pruneRedundantKeys_grow (ht : t.Settled) (hg : g.Fits t) :
    (t.grow g).pruneRedundantKeys = t.grow g :=
  pruneRedundantKeys_eq_self ht.indexSignatures (grow_constraintSignatures ht hg)
    (grow_uniqueRestatingKey? ht hg)

end Table

/-! ### Detaching an added column -/

section Detach

variable {α β : Type}

/-- With distinct keys, erasing the first item of a key removes every item of it. -/
theorem eraseP_eq_filter_of_nodup [DecidableEq β] {key : α → β} {k : β} :
    ∀ {l : List α}, (l.map key).Nodup → l.eraseP (key · = k) = l.filter (key · ≠ k)
  | [], _ => rfl
  | a :: l, h => by
    rw [List.map_cons, List.nodup_cons] at h
    by_cases ha : key a = k
    · rw [List.eraseP_cons_of_pos (by simpa using ha), List.filter_cons_of_neg (by simpa using ha),
        List.filter_eq_self.2 fun b hb => ?_]
      refine decide_eq_true fun hbk => h.1 ?_
      rw [ha, ← hbk]
      exact List.mem_map_of_mem hb
    · rw [List.eraseP_cons_of_neg (by simpa using ha), List.filter_cons_of_pos (by simpa using ha),
        eraseP_eq_filter_of_nodup h.2]

/-- Filtering keeps the items `f` cannot empty out of those it kept. -/
theorem filter_map_filter {p : α → Bool} {f : α → α} (hf : ∀ a, p a = false → p (f a) = false)
    (l : List α) : ((l.filter p).map f).filter p = (l.map f).filter p := by
  induction l with
  | nil => rfl
  | cons a l ih =>
    rw [List.filter_cons]
    split
    · rw [List.map_cons, List.map_cons, List.filter_cons, List.filter_cons, ih]
    · next ha =>
      rw [List.map_cons, List.filter_cons_of_neg (by simpa using hf a (by simpa using ha)), ih]

theorem contains_singleton (x y : Id) : ([x] : List Id).contains y = decide (y = x) := by
  simp

/-- The column put in is the only one a filter passing all others can drop. -/
theorem filter_placeColumn {q : Column → Bool} {cs : List Column} (hcs : ∀ c ∈ cs, q c)
    (p : Option (Nat × Column)) : (placeColumn p cs).filter q = placeColumn (p.filter (q ·.2)) cs := by
  cases p with
  | none => exact List.filter_eq_self.2 hcs
  | some ic =>
    unfold placeColumn insertAt
    have htake : (cs.take ic.1).filter q = cs.take ic.1 :=
      List.filter_eq_self.2 fun c hc => hcs c (List.mem_of_mem_take hc)
    have hdrop : (cs.drop ic.1).filter q = cs.drop ic.1 :=
      List.filter_eq_self.2 fun c hc => hcs c (List.mem_of_mem_drop hc)
    simp only [Option.elim, Option.filter]
    rw [List.filter_append, List.filter_cons, htake, hdrop]
    by_cases hq : q ic.2
    · simp [hq]
    · simp [hq, List.take_append_drop]

theorem placeColumn_perm (p : Option (Nat × Column)) (cs : List Column) :
    (placeColumn p cs).Perm (p.toList.map (·.2) ++ cs) := by
  cases p with
  | none => exact List.Perm.refl _
  | some ic =>
    unfold placeColumn insertAt
    simp only [Option.elim, Option.toList, List.map_cons, List.map_nil, List.singleton_append]
    exact List.perm_middle.trans (by rw [List.take_append_drop])

theorem flatMap_subset_flatMap {γ : Type} {xs : List α} {ys : List β} {f : α → List γ}
    {g : β → List γ} (h : ∀ a ∈ xs, ∃ b ∈ ys, f a ⊆ g b) : xs.flatMap f ⊆ ys.flatMap g := by
  intro x hx
  obtain ⟨a, ha, hxa⟩ := List.mem_flatMap.1 hx
  obtain ⟨b, hb, hab⟩ := h a ha
  exact List.mem_flatMap.2 ⟨b, hb, hab hxa⟩

end Detach

namespace TableGrowth

variable {g : TableGrowth} {t : Table}

theorem without_columnIds (xs : List Id) :
    (g.without xs).columnIds = g.columnIds.filter (!xs.contains ·) := by
  unfold columnIds without
  rw [List.filter_append, List.filter_map, List.filter_map]
  congr 1
  cases g.placed with
  | none => rfl
  | some ic =>
    simp only [Option.filter]
    split <;> simp_all

theorem mem_without_columnIds {xs : List Id} {y : Id} :
    y ∈ (g.without xs).columnIds ↔ y ∈ g.columnIds ∧ y ∉ xs := by
  simp [without_columnIds]

/-- Taking columns away leaves parts that fit. -/
theorem Fits.without (hg : g.Fits t) (xs : List Id) : (g.without xs).Fits t where
  fresh y hy := hg.fresh y (mem_without_columnIds.1 hy).1
  nodup := by
    rw [without_columnIds]
    exact hg.nodup.filter _
  mappings m hm := by
    obtain ⟨hm, hkeep⟩ := List.mem_filter.1 hm
    exact mem_without_columnIds.2 ⟨hg.mappings m hm, by simpa using hkeep⟩
  keyEntries e he := by
    obtain ⟨he, hkeep⟩ := List.mem_filter.1 he
    exact mem_without_columnIds.2 ⟨hg.keyEntries e he, by simpa using hkeep⟩
  constraintEntries k hk e he := by
    obtain ⟨k₀, hk₀, rfl⟩ := List.mem_map.1 hk
    unfold Constraint.withoutColumns at he
    dsimp only at he
    obtain ⟨e₀, he₀, n, rfl⟩ := exists_of_mem_renumber he
    obtain ⟨he₀, hkeep⟩ := List.mem_filter.1 he₀
    exact mem_without_columnIds.2 ⟨hg.constraintEntries k₀ hk₀ e₀ he₀, by simpa using hkeep⟩
  numbered k hk := by
    obtain ⟨k₀, -, rfl⟩ := List.mem_map.1 hk
    exact numbered_renumberConstraintColumns _
  kinds k hk := by
    obtain ⟨k₀, hk₀, rfl⟩ := List.mem_map.1 hk
    exact hg.kinds k₀ hk₀
  kindsNodup := by
    unfold TableGrowth.without
    rw [List.map_map]
    exact hg.kindsNodup

/-- Taking away columns that are none of the added ones leaves the parts as they are. -/
theorem Fits.without_eq (hg : g.Fits t) {xs : List Id} (hxs : ∀ y ∈ g.columnIds, y ∉ xs) :
    g.without xs = g := by
  obtain ⟨placed, columns, mappings, keyEntries, constraints⟩ := g
  simp only [TableGrowth.without, TableGrowth.mk.injEq]
  refine ⟨?_, ?_, ?_, ?_, ?_⟩
  · cases placed with
    | none => rfl
    | some p => simp [Option.filter, hxs p.2.id (List.mem_append_left _ (List.mem_singleton_self _))]
  · exact List.filter_eq_self.2 fun c hc => by
      simp [hxs c.id (List.mem_append_right _ (List.mem_map_of_mem hc))]
  · exact List.filter_eq_self.2 fun m hm => by simp [hxs _ (hg.mappings m hm)]
  · exact List.filter_eq_self.2 fun e he => by simp [hxs _ (hg.keyEntries e he)]
  · refine (List.map_congr_left fun k hk => ?_).trans (List.map_id' _)
    exact Constraint.withoutColumns_of_forall (hg.numbered k hk)
      fun e he => hxs _ (hg.constraintEntries k hk e he)

/-- The new column put in at its place fits a table that mentions it nowhere. -/
theorem fits_place {i : Nat} {c : Column} (hc : c.id ∉ t.mentionedIds) :
    ({ placed := some (i, c) } : TableGrowth).Fits t where
  fresh y hy := by
    simp only [columnIds, Option.toList_some, List.map_cons, List.map_nil, List.append_nil,
      List.mem_singleton] at hy
    exact hy ▸ hc
  nodup := List.nodup_singleton _
  mappings _ h := absurd h List.not_mem_nil
  keyEntries _ h := absurd h List.not_mem_nil
  constraintEntries _ h := absurd h List.not_mem_nil
  numbered _ h := absurd h List.not_mem_nil
  kinds _ h := absurd h List.not_mem_nil
  kindsNodup := List.nodup_nil

/-- A holder column appended with its mapping fits when the table mentions it nowhere and it is
none of the added columns. -/
theorem Fits.addColumn (hg : g.Fits t) {c : Column} (hc : c.id ∉ t.mentionedIds)
    (hcg : c.id ∉ g.columnIds) (rid mid pk : Id) :
    ({ g with
        columns := g.columns ++ [c]
        mappings := g.mappings ++ [(rid, ⟨mid, c.id, pk, 0⟩)] } : TableGrowth).Fits t := by
  have hids : ({ g with
      columns := g.columns ++ [c]
      mappings := g.mappings ++ [(rid, ⟨mid, c.id, pk, 0⟩)] } : TableGrowth).columnIds =
      g.columnIds ++ [c.id] := by
    simp [columnIds]
  have hsub : ∀ y ∈ g.columnIds, y ∈ g.columnIds ++ [c.id] := fun _ h => List.mem_append_left _ h
  refine ⟨?_, ?_, ?_, ?_, ?_, hg.numbered, hg.kinds, hg.kindsNodup⟩ <;> rw [hids]
  · intro y hy
    rcases List.mem_append.1 hy with hy | hy
    · exact hg.fresh y hy
    · exact (List.mem_singleton.1 hy) ▸ hc
  · exact List.nodup_append.2 ⟨hg.nodup, List.nodup_singleton _,
      fun a ha b hb hab => hcg (List.mem_singleton.1 hb ▸ hab ▸ ha)⟩
  · intro m hm
    rcases List.mem_append.1 hm with hm | hm
    · exact hsub _ (hg.mappings m hm)
    · rw [List.mem_singleton.1 hm]
      exact List.mem_append_right _ (List.mem_singleton_self _)
  · exact fun e he => hsub _ (hg.keyEntries e he)
  · exact fun k hk e he => hsub _ (hg.constraintEntries k hk e he)

theorem Fits.addKeyEntries (hg : g.Fits t) {es : List ConstraintColumn}
    (hes : ∀ e ∈ es, e.columnId ∈ g.columnIds) : { g with keyEntries := g.keyEntries ++ es }.Fits t :=
  { hg with
    keyEntries := fun e he => (List.mem_append.1 he).elim (hg.keyEntries e) (hes e) }

/-- A constraint of a kind no added constraint has, on added columns and numbered, fits when it
is a NOT_NULL constraint or the key of a table with none. -/
theorem Fits.addConstraint (hg : g.Fits t) {k : Constraint}
    (hk : k.kind = .notNull ∨ (k.kind = .primaryKey ∧ t.primaryKey? = none))
    (hnew : ∀ k' ∈ g.constraints, k'.kind ≠ k.kind)
    (he : ∀ e ∈ k.columns, e.columnId ∈ g.columnIds) (hn : Numbered (·.seqNo) k.columns) :
    { g with constraints := g.constraints ++ [k] }.Fits t :=
  { hg with
    constraintEntries := fun k' hk' => (List.mem_append.1 hk').elim (hg.constraintEntries k')
      fun h => List.mem_singleton.1 h ▸ he
    numbered := fun k' hk' => (List.mem_append.1 hk').elim (hg.numbered k')
      fun h => List.mem_singleton.1 h ▸ hn
    kinds := fun k' hk' => (List.mem_append.1 hk').elim (hg.kinds k')
      fun h => List.mem_singleton.1 h ▸ hk
    kindsNodup := by
      rw [List.map_append, List.map_singleton]
      exact List.nodup_append.2 ⟨hg.kindsNodup, List.nodup_singleton _, fun a ha b hb hab => by
        obtain ⟨k', hk', rfl⟩ := List.mem_map.1 ha
        exact hnew k' hk' (hab.trans (List.mem_singleton.1 hb))⟩ }

end TableGrowth

namespace Table

variable {t : Table} {g : TableGrowth} {x : Id}

theorem grow_columns_map_id :
    (t.grow g).columns.map (·.id) = (placeColumn g.placed t.columns ++ g.columns).map (·.id) := by
  unfold grow
  rw [map_renumber]
  intros
  rfl

theorem grow_columnIds_perm :
    ((t.grow g).columns.map (·.id)).Perm (t.columns.map (·.id) ++ g.columnIds) := by
  rw [grow_columns_map_id, TableGrowth.columnIds]
  refine (((placeColumn_perm g.placed t.columns).append_right g.columns).map (·.id)).trans ?_
  simp only [List.map_append, List.map_map, Function.comp_def]
  rw [← List.append_assoc]
  exact List.perm_append_comm.append_right _

theorem grow_columnIds_nodup (ht : t.Settled) (hg : g.Fits t) :
    ((t.grow g).columns.map (·.id)).Nodup := by
  refine grow_columnIds_perm.nodup_iff.2 (List.nodup_append.2 ⟨ht.columnIds, hg.nodup, ?_⟩)
  rintro a ha b hb rfl
  obtain ⟨c, hc, rfl⟩ := List.mem_map.1 ha
  exact hg.fresh _ hb (mentions_column hc)

theorem mem_grow_columnIds {y : Id} (hy : y ∈ g.columnIds) : y ∈ (t.grow g).columns.map (·.id) :=
  grow_columnIds_perm.mem_iff.2 (List.mem_append_right _ hy)

theorem grow_columns_detach (ht : t.Settled) (hg : g.Fits t) (hx : x ∈ g.columnIds) :
    renumber (fun c n => { c with ordinalPosition := n }) ((t.grow g).columns.eraseP (·.id = x)) =
      (t.grow (g.without [x])).columns := by
  rw [eraseP_eq_filter_of_nodup (grow_columnIds_nodup ht hg)]
  unfold grow
  dsimp only
  rw [renumber_filter_renumber, List.filter_append, filter_placeColumn]
  · simp only [TableGrowth.without, contains_singleton, ne_eq, decide_not]
  · -- the original columns are not the added one
    intro c hc
    refine decide_eq_true fun hcx => hg.fresh x hx ?_
    rw [← hcx]
    exact mentions_column hc
  all_goals intros; rfl

theorem grow_indexes_detach (ht : t.Settled) (hg : g.Fits t) (hx : x ∈ g.columnIds) :
    ((t.grow g).indexes.map (·.withoutColumn x)).filter (!·.columns.isEmpty) =
      (t.grow (g.without [x])).indexes := by
  rw [grow_indexes, grow_indexes]
  rw [List.map_congr_left fun i hi => Index.withoutColumn_of_forall (ht.gapless.indexes i hi)
    fun e he hex => hg.fresh x hx (by rw [← hex]; exact mentions_indexEntry hi he), List.map_id']
  exact List.filter_eq_self.2 fun i hi => by simpa using ht.indexes i hi

theorem grow_constraints_detach (ht : t.Settled) (hg : g.Fits t) (hx : x ∈ g.columnIds) :
    ((t.grow g).constraints.map (·.withoutColumn x)).filter (!·.columns.isEmpty) =
      (t.grow (g.without [x])).constraints := by
  unfold grow
  dsimp only
  rw [filter_map_filter fun k hk => by simp_all [Constraint.withoutColumn,
    Constraint.withoutColumns, renumber_eq_nil_iff], List.map_map]
  have hstep : (·.withoutColumn x) ∘ Constraint.withKeyEntries g.keyEntries =
      Constraint.withKeyEntries (g.without [x]).keyEntries ∘ (·.withoutColumns [x]) := by
    funext k
    exact Constraint.withKeyEntries_withoutColumns k g.keyEntries [x]
  have horig : t.constraints.map (·.withoutColumns [x]) = t.constraints :=
    (List.map_congr_left fun k hk => Constraint.withoutColumns_of_forall
      (ht.gapless.constraints k hk) fun e he hex => hg.fresh x hx (by
        simpa [← List.mem_singleton.1 hex] using mentions_constraintEntry hk he)).trans
      (List.map_id' _)
  rw [hstep, ← List.map_map, List.map_append, horig]
  rfl

theorem grow_relationships_detach (ht : t.Settled) (hg : g.Fits t) (hx : x ∈ g.columnIds) :
    ((t.grow g).relationships.map (·.withoutFkColumn x)).filter (!·.columns.isEmpty) =
      (t.grow (g.without [x])).relationships := by
  unfold grow
  dsimp only
  have hrel : ∀ r ∈ t.relationships, ((·.withoutFkColumn x) ∘ (·.withMappings g.mappings)) r =
      r.withMappings (g.without [x]).mappings := fun r hr =>
    Relationship.withMappings_withoutFkColumn
      (fun m hm hmx => hg.fresh x hx (by rw [← hmx]; exact mentions_fkColumn hr hm)) g.mappings
  rw [List.map_map, List.map_congr_left hrel]
  refine List.filter_eq_self.2 fun r hr => ?_
  obtain ⟨r₀, hr₀, rfl⟩ := List.mem_map.1 hr
  have hne := ht.relationships r₀ hr₀
  simp [Relationship.withMappings, renumber_eq_nil_iff, hne]

/-- Detaching an added column from a grown table leaves the table grown by the other parts;
pruning finds nothing to prune. -/
theorem detachColumn_grow (ht : t.Settled) (hg : g.Fits t) (hx : x ∈ g.columnIds) :
    (t.grow g).detachColumn x = (t.grow (g.without [x]), true) := by
  have hany : (t.grow g).columns.any (·.id = x) = true := by
    obtain ⟨c, hc, rfl⟩ := List.mem_map.1 (mem_grow_columnIds (t := t) hx)
    exact List.any_eq_true.2 ⟨c, hc, by simp⟩
  unfold detachColumn
  rw [if_pos hany, grow_columns_detach ht hg hx, grow_indexes_detach ht hg hx,
    grow_constraints_detach ht hg hx, grow_relationships_detach ht hg hx]
  exact congrArg (·, true) (pruneRedundantKeys_grow ht (hg.without [x]))

/-! ### Nothing added -/

/-- A table that agrees with a grown table on every part is that grown table. -/
theorem eq_grow_of_parts {t' : Table} (hid : t'.id = t.id) (hs : t'.schemaId = t.schemaId)
    (hn : t'.name = t.name) (hcm : t'.comment = t.comment) (hi : t'.indexes = t.indexes)
    (hc : t'.columns = (t.grow g).columns) (hk : t'.constraints = (t.grow g).constraints)
    (hr : t'.relationships = (t.grow g).relationships) : t' = t.grow g := by
  cases t'
  dsimp only at hid hs hn hcm hi hc hk hr
  subst hid hs hn hcm hi hc hk hr
  rfl

theorem grow_relationships_of_nil (ht : t.Settled) (hm : g.mappings = []) :
    (t.grow g).relationships = t.relationships := by
  unfold grow
  dsimp only
  rw [hm]
  refine (List.map_congr_left fun r hr => ?_).trans (List.map_id' _)
  unfold Relationship.withMappings
  simp only [List.filter_nil, List.map_nil, List.append_nil]
  rw [renumber_eq_self (fun _ => rfl) (ht.gapless.relationships r hr)]

/-- With no key entry and no entry on an added constraint, the constraints are the table's. -/
theorem grow_constraints_of_nil (ht : t.Settled) (hk : g.keyEntries = [])
    (hc : ∀ k ∈ g.constraints, k.columns = []) : (t.grow g).constraints = t.constraints := by
  unfold grow
  dsimp only
  rw [hk, List.map_append, List.filter_append]
  have horig : t.constraints.map (·.withKeyEntries []) = t.constraints := by
    refine (List.map_congr_left fun k hk => ?_).trans (List.map_id' _)
    unfold Constraint.withKeyEntries
    split
    · simp only [List.append_nil]
      rw [renumber_eq_self (fun _ => rfl) (ht.gapless.constraints k hk)]
    · rfl
  rw [horig, List.filter_eq_self.2 fun k hk => by simpa using ht.constraints k hk,
    List.filter_eq_nil_iff.2 fun k hk => ?_, List.append_nil]
  obtain ⟨k₀, hk₀, rfl⟩ := List.mem_map.1 hk
  unfold Constraint.withKeyEntries
  split <;> simp [hc k₀ hk₀, renumber_eq_nil_iff]

/-- With every added column gone, the grown table is the table. -/
theorem grow_of_columnIds_eq_nil (ht : t.Settled) (hg : g.Fits t) (h : g.columnIds = []) :
    t.grow g = t := by
  have hcols : g.placed = none ∧ g.columns = [] := by
    simpa [TableGrowth.columnIds] using h
  have hm : g.mappings = [] :=
    List.eq_nil_iff_forall_not_mem.2 fun m hm => by simpa [h] using hg.mappings m hm
  have hk : g.keyEntries = [] :=
    List.eq_nil_iff_forall_not_mem.2 fun e he => by simpa [h] using hg.keyEntries e he
  have hc : ∀ k ∈ g.constraints, k.columns = [] := fun k hk =>
    List.eq_nil_iff_forall_not_mem.2 fun e he => by simpa [h] using hg.constraintEntries k hk e he
  have hcolumns : (t.grow g).columns = t.columns := by
    unfold grow
    dsimp only
    rw [hcols.1, hcols.2, List.append_nil]
    exact renumber_eq_self (fun _ => rfl) ht.gapless.columns
  exact (eq_grow_of_parts rfl rfl rfl rfl rfl hcolumns.symm
    (grow_constraints_of_nil ht hk hc).symm (grow_relationships_of_nil ht hm).symm).symm

/-! ### Adding parts -/

theorem grow_placeColumn (ht : t.Settled) (i : Nat) (c : Column) :
    ({ t with columns := insertAt t.columns i c } : Table).resequenceColumns =
      t.grow { placed := some (i, c) } := by
  refine eq_grow_of_parts rfl rfl rfl rfl rfl ?_
    (grow_constraints_of_nil ht rfl (fun _ h => absurd h List.not_mem_nil)).symm
    (grow_relationships_of_nil ht rfl).symm
  unfold grow resequenceColumns placeColumn
  simp only [Option.elim, List.append_nil]

/-- Appending a constraint that is no key and has entries grows the table by it. -/
theorem grow_appendConstraint {k : Constraint} (hk : k.kind ≠ .primaryKey) (hne : k.columns ≠ []) :
    ({ t.grow g with constraints := (t.grow g).constraints ++ [k] } : Table) =
      t.grow { g with constraints := g.constraints ++ [k] } := by
  unfold grow
  simp only [← List.append_assoc, List.map_append, List.filter_append, List.map_singleton,
    Constraint.withKeyEntries_of_ne hk]
  have hemp : k.columns.isEmpty = false := List.isEmpty_eq_false_iff.2 hne
  rw [List.filter_singleton, hemp]
  rfl

/-- Appending a column and renumbering grows the table by it. -/
theorem grow_appendColumn (c : Column) :
    ({ t.grow g with columns := (t.grow g).columns ++ [c] } : Table).resequenceColumns =
      t.grow { g with columns := g.columns ++ [c] } := by
  unfold grow resequenceColumns
  dsimp only
  rw [renumber_append_renumber, List.append_assoc]
  intros
  rfl

/-- Appending a mapping to the relationship of an id grows the table by it: with distinct
relationship ids, the relationship changed is the only one with the id. -/
theorem grow_attach (ht : t.Settled) (rid mid fk pk : Id) :
    ({ t.grow g with relationships := updateFirst (·.id = rid) (fun r => { r with
        columns := r.columns ++ [⟨mid, fk, pk, r.columns.length + 1⟩] }) (t.grow g).relationships } :
      Table) = t.grow { g with mappings := g.mappings ++ [(rid, ⟨mid, fk, pk, 0⟩)] } := by
  have hids : ((t.grow g).relationships.map (·.id)).Nodup := by
    unfold grow
    rw [List.map_map]
    exact ht.relationshipIds
  have hcount : ((t.grow g).relationships.countP (·.id = rid)) ≤ 1 := by
    rw [List.countP_eq_length_filter]
    exact length_filter_id_le_one hids rid
  rw [updateFirst_eq_map hcount]
  unfold grow
  simp only [List.map_map]
  congr 1
  refine List.map_congr_left fun r _ => ?_
  unfold Relationship.withMappings
  simp only [Function.comp_apply, List.filter_append, List.filter_singleton, List.map_append]
  by_cases hr : r.id = rid
  · simp only [hr, decide_true, cond_true, ite_true, List.map_cons, List.map_nil]
    rw [← List.append_assoc, renumber_append_singleton, length_renumber]
  · simp [hr, Ne.symm hr]

/-! ### Growing the key -/

/-- At most one original or added constraint is a key: an added key comes on a table with none,
and added constraints have distinct kinds. -/
theorem countP_key_le_one (ht : t.Settled) (hg : g.Fits t) :
    (t.constraints ++ g.constraints).countP (·.kind = .primaryKey) ≤ 1 := by
  rw [List.countP_append]
  by_cases hnone : t.primaryKey? = none
  · have hzero : t.constraints.countP (·.kind = .primaryKey) = 0 :=
      List.countP_eq_zero.2 fun k hk => by simpa using kind_ne_of_primaryKey?_eq_none hnone hk
    -- the added keys are added constraints of one kind, hence one at most
    have hsub : ((g.constraints.filter (·.kind = .primaryKey)).map (·.kind)).Nodup :=
      hg.kindsNodup.sublist (List.filter_sublist.map _)
    have hrep : (g.constraints.filter (·.kind = .primaryKey)).map (·.kind) =
        List.replicate (g.constraints.filter (·.kind = .primaryKey)).length .primaryKey :=
      List.eq_replicate_iff.2 ⟨List.length_map _, fun k hk => by
        obtain ⟨k', hk', rfl⟩ := List.mem_map.1 hk
        simpa using (List.mem_filter.1 hk').2⟩
    rw [hrep, List.nodup_replicate] at hsub
    rw [hzero, List.countP_eq_length_filter]
    omega
  · have hzero : g.constraints.countP (·.kind = .primaryKey) = 0 :=
      List.countP_eq_zero.2 fun k hk hpk => by
        rcases hg.kinds k hk with h | h
        · simp [h] at hpk
        · exact hnone h.2
    rw [hzero]
    exact ht.onePrimaryKey

/-- Appending entries to the key of a grown table grows it by them, when the entries carry on the
key's numbering. -/
theorem grow_extendKey (ht : t.Settled) (hg : g.Fits t) {pk : Constraint}
    (hpk : (t.grow g).primaryKey? = some pk) {es : List ConstraintColumn}
    (hes : Numbered (·.seqNo) (pk.columns ++ es)) :
    updateFirst (·.kind = .primaryKey) (fun _ => { pk with columns := pk.columns ++ es })
        (t.grow g).constraints =
      (t.grow { g with keyEntries := g.keyEntries ++ es }).constraints := by
  obtain ⟨k₁, hk₁, rfl, hne₁⟩ := exists_of_mem_grow_constraints (List.mem_of_find?_eq_some hpk)
  have hk₁pk : k₁.kind = .primaryKey := by simpa using List.find?_some hpk
  have huniq : ∀ k ∈ t.constraints ++ g.constraints, k.kind = .primaryKey → k = k₁ :=
    fun k hk hkpk => eq_of_countP_le_one (countP_key_le_one ht hg) hk (by simpa using hkpk) hk₁
      (by simpa using hk₁pk)
  have hcount : (t.grow g).constraints.countP (·.kind = .primaryKey) ≤ 1 := by
    refine List.filter_sublist.countP_le.trans ?_
    rw [List.countP_map]
    refine (List.countP_congr fun k _ => ?_).trans_le (countP_key_le_one ht hg)
    simp
  have hkey : k₁.withKeyEntries (g.keyEntries ++ es) =
      { k₁.withKeyEntries g.keyEntries with
        columns := (k₁.withKeyEntries g.keyEntries).columns ++ es } := by
    unfold Constraint.withKeyEntries at hes ⊢
    simp only [if_pos hk₁pk] at hes ⊢
    rw [← List.append_assoc, ← renumber_append_renumber, renumber_eq_self (fun _ => rfl) hes]
    intros
    rfl
  rw [updateFirst_eq_map hcount]
  unfold grow
  dsimp only
  rw [List.filter_map, List.filter_map, List.map_map]
  have hfilter : (t.constraints ++ g.constraints).filter
        ((fun k => !k.columns.isEmpty) ∘ Constraint.withKeyEntries g.keyEntries) =
      (t.constraints ++ g.constraints).filter
        ((fun k => !k.columns.isEmpty) ∘ Constraint.withKeyEntries (g.keyEntries ++ es)) := by
    refine List.filter_congr fun k hk => ?_
    by_cases hkpk : k.kind = .primaryKey
    · obtain rfl := huniq k hk hkpk
      have hne₂ : (k.withKeyEntries g.keyEntries).columns ++ es ≠ [] := by simp [hne₁]
      simp only [Function.comp_apply, hkey]
      rw [List.isEmpty_eq_false_iff.2 hne₁, List.isEmpty_eq_false_iff.2 hne₂]
    · simp [Constraint.withKeyEntries_of_ne hkpk]
  rw [hfilter]
  refine List.map_congr_left fun k hk => ?_
  have hk' := (List.mem_filter.1 hk).1
  by_cases hkpk : k.kind = .primaryKey
  · obtain rfl := huniq k hk' hkpk
    simp [hkey, hk₁pk]
  · simp [Constraint.withKeyEntries_of_ne hkpk, hkpk]

theorem updateFirst_append_of_forall {α : Type} {p : α → Bool} {f : α → α} :
    ∀ {xs : List α} (ys : List α), (∀ x ∈ xs, p x = false) →
      updateFirst p f (xs ++ ys) = xs ++ updateFirst p f ys
  | [], _, _ => rfl
  | x :: xs, ys, h => by
    rw [List.cons_append, updateFirst.eq_2, if_neg (by simp [h x List.mem_cons_self]),
      updateFirst_append_of_forall ys fun y hy => h y (List.mem_cons_of_mem x hy), List.cons_append]

/-- A key created for entries on a grown table without one grows the table by it. -/
theorem grow_createKey (ht : t.Settled) (hnone : (t.grow g).primaryKey? = none)
    (hnokey : ∀ k ∈ g.constraints, k.kind ≠ .primaryKey) (hke : g.keyEntries = [])
    {hdr : Constraint} (hkind : hdr.kind = .primaryKey) (hcols : hdr.columns = [])
    {es : List ConstraintColumn} (hes : Numbered (·.seqNo) es) (hne : es ≠ []) :
    updateFirst (·.kind = .primaryKey) (fun _ => { hdr with columns := hdr.columns ++ es })
        ((t.grow g).constraints ++ [hdr]) =
      (t.grow { g with constraints := g.constraints ++ [hdr], keyEntries := es }).constraints := by
  have hnopk : ∀ k ∈ (t.grow g).constraints, (decide (k.kind = .primaryKey)) = false := by
    intro k hk
    simpa using List.find?_eq_none.1 hnone k hk
  have htnone : ∀ k ∈ t.constraints, k.kind ≠ .primaryKey := by
    intro k hk hkpk
    have hmem : k.withKeyEntries g.keyEntries ∈ (t.grow g).constraints := by
      refine List.mem_filter.2 ⟨List.mem_map_of_mem (List.mem_append_left _ hk), ?_⟩
      rw [hke]
      unfold Constraint.withKeyEntries
      rw [if_pos hkpk]
      simpa [renumber_eq_nil_iff] using ht.constraints k hk
    simpa [hkpk] using hnopk _ hmem
  have hsame : (t.constraints ++ g.constraints).map (·.withKeyEntries es) =
      (t.constraints ++ g.constraints).map (·.withKeyEntries []) :=
    List.map_congr_left fun k hk => by
      have hkpk : k.kind ≠ .primaryKey := by
        rcases List.mem_append.1 hk with h | h
        · exact htnone k h
        · exact hnokey k h
      rw [Constraint.withKeyEntries_of_ne hkpk, Constraint.withKeyEntries_of_ne hkpk]
  have hhdr : hdr.withKeyEntries es = { hdr with columns := hdr.columns ++ es } := by
    unfold Constraint.withKeyEntries
    rw [if_pos hkind, hcols, List.nil_append, renumber_eq_self (fun _ => rfl) hes]
  have hgrown : (t.grow { g with constraints := g.constraints ++ [hdr], keyEntries := es }).constraints =
      (t.grow g).constraints ++ [{ hdr with columns := hdr.columns ++ es }] := by
    unfold grow
    dsimp only
    rw [hke, ← List.append_assoc, List.map_append, List.filter_append, hsame, List.map_singleton,
      hhdr, List.filter_singleton, hcols, List.nil_append, List.isEmpty_eq_false_iff.2 hne]
    rfl
  rw [updateFirst_append_of_forall [hdr] hnopk, updateFirst.eq_2, if_pos (by simp [hkind]), hgrown]

/-! ### Dropping the mapping of an added column -/

/-- Stripping the only mapping of a column the table does not mention from its relationship
leaves the table grown by the other mappings; a column that is not added loses nothing. -/
theorem grow_stripMapping (ht : t.Settled) {rid fk key : Id} (hfresh : fk ∉ t.mentionedIds)
    (hfk : ∀ m ∈ g.mappings, m.2.fkColumnId = fk → m.1 = rid ∧ m.2.pkColumnId = key) :
    (updateFirst (·.id = rid)
        (fun r => { r with
          columns := renumber (fun m n => { m with seqNo := n })
            (r.columns.filter fun m => !(m.fkColumnId = fk && m.pkColumnId = key)) })
        (t.grow g).relationships).filter (!·.columns.isEmpty) =
      (t.grow { g with
        mappings := g.mappings.filter (!([fk] : List Id).contains ·.2.fkColumnId) }).relationships := by
  have hids : ((t.grow g).relationships.map (·.id)).Nodup := by
    unfold grow
    rw [List.map_map]
    exact ht.relationshipIds
  have hcount : ((t.grow g).relationships.countP (·.id = rid)) ≤ 1 := by
    rw [List.countP_eq_length_filter]
    exact length_filter_id_le_one hids rid
  rw [updateFirst_eq_map hcount]
  unfold grow
  simp only [List.map_map]
  -- the original mappings do not use the added column; an added one using it is the one stripped
  have hmap : ∀ r ∈ t.relationships, ((fun r => if decide (r.id = rid) = true then { r with
      columns := renumber (fun m n => { m with seqNo := n })
        (r.columns.filter fun m => !(m.fkColumnId = fk && m.pkColumnId = key)) } else r) ∘
      (·.withMappings g.mappings)) r = r.withMappings
        (g.mappings.filter (!([fk] : List Id).contains ·.2.fkColumnId)) := by
    intro r hr
    have horig : r.columns.filter (fun m => !(m.fkColumnId = fk && m.pkColumnId = key)) =
        r.columns := List.filter_eq_self.2 fun m hm => by
      have : m.fkColumnId ≠ fk := fun h => hfresh (h ▸ mentions_fkColumn hr hm)
      simp [this]
    have hadded : ((g.mappings.filter (·.1 = r.id)).map (·.2)).filter
        (fun m => !(m.fkColumnId = fk && m.pkColumnId = key)) =
        ((g.mappings.filter (!([fk] : List Id).contains ·.2.fkColumnId)).filter
          (·.1 = r.id)).map (·.2) := by
      rw [List.filter_map, List.filter_filter, List.filter_filter]
      congr 1
      refine List.filter_congr fun m hm => ?_
      by_cases hm' : m.2.fkColumnId = fk
      · simp [hm', (hfk m hm hm').2]
      · simp [hm']
    have hsame : r.id ≠ rid → ((g.mappings.filter (·.1 = r.id)).map (·.2)) =
        ((g.mappings.filter (!([fk] : List Id).contains ·.2.fkColumnId)).filter
          (·.1 = r.id)).map (·.2) := by
      intro hrid
      rw [List.filter_filter]
      congr 1
      refine List.filter_congr fun m hm => ?_
      by_cases hm' : m.2.fkColumnId = fk
      · have hm1 := (hfk m hm hm').1
        simp [hm', hm1, Ne.symm hrid]
      · simp [hm']
    simp only [Function.comp_apply]
    unfold Relationship.withMappings
    by_cases hrid : r.id = rid
    · simp only [hrid, decide_true, ite_true]
      rw [renumber_filter_renumber, List.filter_append, horig, ← hrid, hadded]
      all_goals intros; rfl
    · simp only [hrid, decide_false, Bool.false_eq_true, ite_false]
      rw [hsame hrid]
  rw [List.map_congr_left hmap]
  refine List.filter_eq_self.2 fun r hr => ?_
  obtain ⟨r₀, hr₀, rfl⟩ := List.mem_map.1 hr
  have hne := ht.relationships r₀ hr₀
  simp [Relationship.withMappings, renumber_eq_nil_iff, hne]

/-- After the strip, no relationship maps the column. -/
theorem grow_stripped_mapsFk {fk : Id} (hfresh : fk ∉ t.mentionedIds) :
    (t.grow { g with
      mappings := g.mappings.filter (!([fk] : List Id).contains ·.2.fkColumnId) }).relationships.any
        (·.mapsFkColumn fk) = false := by
  unfold grow
  simp only [List.any_map, List.any_eq_false]
  intro r hr hmaps
  unfold Relationship.mapsFkColumn Relationship.withMappings at hmaps
  simp only [Function.comp_apply, List.any_eq_true] at hmaps
  obtain ⟨m, hm, hmfk⟩ := hmaps
  obtain ⟨m₀, hm₀, n, rfl⟩ := exists_of_mem_renumber hm
  have hm₀fk : m₀.fkColumnId = fk := by simpa using hmfk
  rcases List.mem_append.1 hm₀ with h | h
  · exact hfresh (hm₀fk ▸ mentions_fkColumn hr h)
  · obtain ⟨p, hp, rfl⟩ := List.mem_map.1 h
    have := (List.mem_filter.1 (List.mem_filter.1 hp).1).2
    simp [hm₀fk] at this

/-! ### Ids and keys of a grown table -/

theorem mem_grow_constraints {k : Constraint} (hk : k ∈ t.constraints ++ g.constraints)
    (hne : (k.withKeyEntries g.keyEntries).columns ≠ []) :
    k.withKeyEntries g.keyEntries ∈ (t.grow g).constraints :=
  List.mem_filter.2 ⟨List.mem_map_of_mem hk, by simpa using hne⟩

/-- A grown table has a key when the table had one, or when a key was added and given
entries. -/
theorem grow_primaryKey?_isSome (ht : t.Settled)
    (h : t.primaryKey?.isSome ∨ ∃ k ∈ g.constraints, k.kind = .primaryKey ∧ g.keyEntries ≠ []) :
    (t.grow g).primaryKey?.isSome := by
  obtain ⟨k, hk, hkind, hne⟩ : ∃ k ∈ t.constraints ++ g.constraints, k.kind = .primaryKey ∧
      (k.columns ≠ [] ∨ k.kind = .primaryKey ∧ g.keyEntries ≠ []) := by
    rcases h with h | ⟨k, hk, hkind, hes⟩
    · obtain ⟨k, hfind⟩ := Option.isSome_iff_exists.1 h
      have hk := List.mem_of_find?_eq_some hfind
      exact ⟨k, List.mem_append_left _ hk, by simpa using List.find?_some hfind,
        Or.inl (ht.constraints k hk)⟩
    · exact ⟨k, List.mem_append_right _ hk, hkind, Or.inr ⟨hkind, hes⟩⟩
  exact List.find?_isSome.2 ⟨_, mem_grow_constraints hk
    (Constraint.withKeyEntries_columns_ne_nil hne), by simp [hkind]⟩

/-- Growing keeps every id the table mentions: parts keep their ids and references, and no
original part is left out. -/
theorem mentionedIds_subset_grow (ht : t.Settled) : t.mentionedIds ⊆ (t.grow g).mentionedIds := by
  have hcols : t.columns.flatMap (fun c => [c.id, c.tableId]) ⊆
      (t.grow g).columns.flatMap (fun c => [c.id, c.tableId]) := by
    unfold grow
    dsimp only
    rw [flatMap_renumber]
    · exact flatMap_subset_flatMap fun c hc => ⟨c, List.mem_append_left _
        ((placeColumn_perm _ _).mem_iff.2 (List.mem_append_right _ hc)), List.Subset.refl _⟩
    · intros
      rfl
  have hcons : t.constraints.flatMap (fun k => k.id :: k.tableId :: k.columns.flatMap fun c =>
      [c.id, c.columnId]) ⊆ (t.grow g).constraints.flatMap (fun k => k.id :: k.tableId ::
      k.columns.flatMap fun c => [c.id, c.columnId]) := by
    refine flatMap_subset_flatMap fun k hk => ⟨k.withKeyEntries g.keyEntries,
      mem_grow_constraints (List.mem_append_left _ hk)
        (Constraint.withKeyEntries_columns_ne_nil (Or.inl (ht.constraints k hk))), ?_⟩
    unfold Constraint.withKeyEntries
    split
    · dsimp only
      rw [flatMap_renumber, List.flatMap_append]
      · exact List.cons_subset_cons _ (List.cons_subset_cons _ (List.subset_append_left _ _))
      · intros
        rfl
    · exact List.Subset.refl _
  have hrels : t.relationships.flatMap (fun r => r.id :: r.fkTableId :: r.pkTableId ::
      r.columns.flatMap fun m => [m.id, m.fkColumnId, m.pkColumnId]) ⊆
      (t.grow g).relationships.flatMap (fun r => r.id :: r.fkTableId :: r.pkTableId ::
      r.columns.flatMap fun m => [m.id, m.fkColumnId, m.pkColumnId]) := by
    refine flatMap_subset_flatMap fun r hr => ⟨r.withMappings g.mappings, List.mem_map_of_mem hr, ?_⟩
    unfold Relationship.withMappings
    dsimp only
    rw [flatMap_renumber, List.flatMap_append]
    · exact List.cons_subset_cons _ (List.cons_subset_cons _ (List.cons_subset_cons _
        (List.subset_append_left _ _)))
    · intros
      rfl
  intro x hx
  unfold mentionedIds at hx ⊢
  rw [grow_id, grow_schemaId, grow_indexes]
  rcases List.mem_cons.1 hx with rfl | hx
  · exact List.mem_cons_self
  rcases List.mem_cons.1 hx with rfl | hx
  · exact List.mem_cons_of_mem _ List.mem_cons_self
  refine List.mem_cons_of_mem _ (List.mem_cons_of_mem _ ?_)
  rcases List.mem_append.1 hx with hx | h
  · rcases List.mem_append.1 hx with hx | h
    · rcases List.mem_append.1 hx with h | h
      · exact List.mem_append_left _ (List.mem_append_left _ (List.mem_append_left _ (hcols h)))
      · exact List.mem_append_left _ (List.mem_append_left _ (List.mem_append_right _ h))
    · exact List.mem_append_left _ (List.mem_append_right _ (hcons h))
  · exact List.mem_append_right _ (hrels h)

theorem columnIds_subset_grow_mentionedIds : g.columnIds ⊆ (t.grow g).mentionedIds := fun y hy => by
  obtain ⟨c, hc, rfl⟩ := List.mem_map.1 (mem_grow_columnIds (t := t) hy)
  exact mentions_column hc

end Table

end SchemaDesign
