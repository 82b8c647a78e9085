import SchemaDesign.Proofs.Edit.Composite
import SchemaDesign.Proofs.Edit.Sequences
import Mathlib.Data.List.Nodup

/-!
# Name scopes

Each kind of entity has a scope within which its names are unique (`Database.NamesUnique`):
schemas in the database; tables, indexes and constraints in their schema; columns and
relationships in their table. An accepted snapshot has unique names in every scope
(`Database.namesUnique_of_validate`).

New names come from two places. A name from the caller is checked against its scope first. A
generated name is the first free one among candidates (`uniqueName`): the base cut to the bound,
then the base cut shorter with `_2`, `_3`, … appended. The suffixed candidates differ in what
follows their last underscore, so they are pairwise distinct, and one of the first
`taken.length + 1` of them is free (`uniqueName_not_mem`).

A table change that only keeps, drops or renames in place what it has adds no name
(`Table.NamesWithin`). One that brings a name in may replace the table in its schema when the
name is free in its scope (`Table.NamesFit`). Either keeps the scopes of a snapshot unique
(`Database.NamesUnique.updateTable`).
-/

namespace SchemaDesign

/-! ## Generated names -/

/-- Lists that end in `c` followed by no `c` end alike after it. -/
theorem eq_of_append_cons_of_not_mem {c : Char} : ∀ {a b d e : List Char}, c ∉ d → c ∉ e →
    a ++ c :: d = b ++ c :: e → d = e
  | [], [], _, _, _, _, h => by simpa using h
  | [], x :: b, d, e, hd, _, h => by
    simp only [List.nil_append, List.cons_append, List.cons.injEq] at h
    exact absurd (h.2 ▸ List.mem_append_right _ List.mem_cons_self) hd
  | x :: a, [], d, e, _, he, h => by
    simp only [List.nil_append, List.cons_append, List.cons.injEq] at h
    exact absurd (h.2.symm ▸ List.mem_append_right _ List.mem_cons_self) he
  | x :: a, y :: b, d, e, hd, he, h => by
    simp only [List.cons_append, List.cons.injEq] at h
    exact eq_of_append_cons_of_not_mem hd he h.2

/-- Suffixed candidates differ: the digits after the last underscore are the suffix's. -/
theorem suffixed_injective (base : String) (max : Nat) : Function.Injective (suffixed base max) := by
  intro k j h
  have hl := congrArg String.toList h
  simp only [suffixed, truncate, String.toList_append, String.toList_ofList, Nat.toString_eq_repr,
    Nat.toList_repr] at hl
  have hd := eq_of_append_cons_of_not_mem Nat.underscore_not_in_toDigits
    Nat.underscore_not_in_toDigits hl
  simpa using congrArg (Nat.ofDigitChars 10 · 0) hd

/-- A generated name is not taken. -/
theorem uniqueName_not_mem (base : String) (max : Nat) (taken : List String) :
    uniqueName base max taken ∉ taken := by
  unfold uniqueName
  dsimp only
  split
  next hfirst => exact hfirst
  next =>
    generalize hc : (List.range (taken.length + 1)).map (fun i => suffixed base max (i + 2)) = cs
    cases hfind : cs.find? (· ∉ taken) with
    | some c => simpa using List.find?_some hfind
    | none =>
      -- all candidates taken: one more distinct name than there are names taken
      have hall : ∀ c ∈ cs, c ∈ taken := by simpa using List.find?_eq_none.1 hfind
      have hnd : cs.Nodup := hc ▸ List.Nodup.map (fun _ _ h => by
        simpa using suffixed_injective base max h) List.nodup_range
      have hlen := List.Nodup.length_le_of_subset hnd hall
      rw [← hc, List.length_map, List.length_range] at hlen
      omega

/-! ## Scopes -/

namespace Table

/-- The names of the table's relationships. -/
def relationshipNames (t : Table) : List String := t.relationships.map (·.name)

/-- The names of the table's indexes. -/
def indexNames (t : Table) : List String := t.indexes.map (·.name)

/-- The names of the table's constraints. -/
def constraintNames (t : Table) : List String := t.constraints.map (·.name)

/-- Column names are unique in the table, and so are relationship names. -/
structure NamesUnique (t : Table) : Prop where
  columns : t.columnNames.Nodup
  relationships : t.relationshipNames.Nodup

instance (t : Table) : Decidable t.NamesUnique :=
  decidable_of_iff (t.columnNames.Nodup ∧ t.relationshipNames.Nodup)
    ⟨fun h => ⟨h.1, h.2⟩, fun h => ⟨h.columns, h.relationships⟩⟩

end Table

namespace Schema

/-- The names of the schema's tables. -/
def tableNames (s : Schema) : List String := s.tables.map (·.name)

/-- The names of the indexes of the schema, table by table. -/
def indexNames (s : Schema) : List String := s.tables.flatMap Table.indexNames

/-- The names of the constraints of the schema, table by table. -/
def constraintNames (s : Schema) : List String := s.tables.flatMap Table.constraintNames

theorem indexes_map_name (s : Schema) : s.indexes.map (·.name) = s.indexNames := by
  rw [indexes, List.map_flatMap]
  rfl

theorem constraints_map_name (s : Schema) : s.constraints.map (·.name) = s.constraintNames := by
  rw [constraints, List.map_flatMap]
  rfl

/-- Table, index and constraint names are unique in the schema, and each table's own names in the
table. -/
structure NamesUnique (s : Schema) : Prop where
  tables : s.tableNames.Nodup
  indexes : s.indexNames.Nodup
  constraints : s.constraintNames.Nodup
  inTables : ∀ t ∈ s.tables, t.NamesUnique

instance (s : Schema) : Decidable s.NamesUnique :=
  decidable_of_iff (s.tableNames.Nodup ∧ s.indexNames.Nodup ∧ s.constraintNames.Nodup ∧
      ∀ t ∈ s.tables, t.NamesUnique)
    ⟨fun h => ⟨h.1, h.2.1, h.2.2.1, h.2.2.2⟩,
      fun h => ⟨h.tables, h.indexes, h.constraints, h.inTables⟩⟩

theorem NamesUnique.tableIndexNames {s : Schema} (h : s.NamesUnique) {t : Table}
    (ht : t ∈ s.tables) : t.indexNames.Nodup :=
  h.indexes.sublist (List.sublist_flatten_of_mem (List.mem_map_of_mem ht))

theorem NamesUnique.tableConstraintNames {s : Schema} (h : s.NamesUnique) {t : Table}
    (ht : t ∈ s.tables) : t.constraintNames.Nodup :=
  h.constraints.sublist (List.sublist_flatten_of_mem (List.mem_map_of_mem ht))

theorem namesUnique_of_tables_eq_nil {s : Schema} (h : s.tables = []) : s.NamesUnique where
  tables := by simp [tableNames, h]
  indexes := by simp [indexNames, h]
  constraints := by simp [constraintNames, h]
  inTables := by simp [h]

end Schema

/-- Every name scope of the snapshot holds each name once: schema names in the database, table,
index and constraint names in their schema, column and relationship names in their table. -/
structure Database.NamesUnique (db : Database) : Prop where
  schemas : (db.schemas.map (·.name)).Nodup
  inSchemas : ∀ s ∈ db.schemas, s.NamesUnique

instance (db : Database) : Decidable db.NamesUnique :=
  decidable_of_iff ((db.schemas.map (·.name)).Nodup ∧ ∀ s ∈ db.schemas, s.NamesUnique)
    ⟨fun h => ⟨h.1, h.2⟩, fun h => ⟨h.schemas, h.inSchemas⟩⟩

/-! ## Accepted snapshots -/

/-- A fold that refuses an item whose keys it has seen, and records the keys of each item it
accepts in front: a run that succeeds has seen every key once. -/
theorem Except.nodup_of_foldlM {ε α β γ : Type} {body : γ → α → Except ε γ} (seen : γ → List β)
    (keys : α → List β)
    (hbody : ∀ acc x acc', body acc x = .ok acc' → (seen acc).Nodup →
      seen acc' = (keys x).reverse ++ seen acc ∧ (seen acc').Nodup) :
    ∀ (xs : List α) (acc r : γ), xs.foldlM body acc = .ok r → (seen acc).Nodup →
      seen r = (xs.flatMap keys).reverse ++ seen acc ∧ (seen r).Nodup
  | [], acc, r, h, hnd => by
    cases h
    exact ⟨by simp, hnd⟩
  | x :: xs, acc, r, h, hnd => by
    rw [List.foldlM_cons] at h
    obtain ⟨acc', h₁, h₂⟩ := Except.exists_of_bind_eq_ok h
    obtain ⟨hseen, hnd'⟩ := hbody acc x acc' h₁ hnd
    obtain ⟨hr, hndr⟩ := Except.nodup_of_foldlM seen keys hbody xs acc' r h₂ hnd'
    refine ⟨?_, hndr⟩
    rw [hr, hseen, List.flatMap_cons, List.reverse_append, List.append_assoc]

/-- The keys a fold from nothing has seen once are distinct. -/
theorem Except.nodup_flatMap_of_foldlM {ε α β γ : Type} {body : γ → α → Except ε γ}
    (seen : γ → List β) (keys : α → List β)
    (hbody : ∀ acc x acc', body acc x = .ok acc' → (seen acc).Nodup →
      seen acc' = (keys x).reverse ++ seen acc ∧ (seen acc').Nodup)
    {xs : List α} {acc r : γ} (h : xs.foldlM body acc = .ok r) (hnil : seen acc = []) :
    (xs.flatMap keys).Nodup := by
  obtain ⟨hr, hnd⟩ := Except.nodup_of_foldlM seen keys hbody xs acc r h (by simp [hnil])
  rw [hr, hnil, List.append_nil] at hnd
  exact List.nodup_reverse.1 hnd

theorem nodup_cons_of_not_contains {names : List String} {x : String}
    (h : ¬names.contains x = true) (hnd : names.Nodup) : (x :: names).Nodup :=
  List.nodup_cons.2 ⟨by simpa using h, hnd⟩

/-- The name checks of one kind of entity of a table, within a schema-wide pass. -/
theorem Except.names_foldlM {α : Type} {name : α → String} {e : α → DesignError} (xs : List α)
    {names r : List String}
    (h : xs.foldlM (fun (names : List String) x => do
        if names.contains (name x) then throw (e x)
        pure (name x :: names)) names = (.ok r : Except DesignError (List String)))
    (hnd : names.Nodup) :
    r = (xs.map name).reverse ++ names ∧ r.Nodup := by
  rw [List.map_eq_flatMap]
  refine Except.nodup_of_foldlM (fun names => names) (fun x => [name x]) ?_ xs names r h hnd
  intro names x names' hb hnd
  dsimp only at hb
  split at hb
  · cases hb
  next hnew =>
    cases hb
    exact ⟨rfl, nodup_cons_of_not_contains hnew hnd⟩

namespace Table

variable {t : Table}

theorem columnNames_nodup_of_validateParts {vendor : Vendor} (h : t.validateParts vendor = .ok ()) :
    t.columnNames.Nodup := by
  unfold validateParts at h
  obtain ⟨_, hfold, -⟩ := Except.exists_of_bind_eq_ok h
  have := Except.nodup_flatMap_of_foldlM (·.1) (fun c : Column => [c.name]) ?_ hfold rfl
  · rwa [columnNames, List.map_eq_flatMap]
  intro acc c acc' hb hnd
  dsimp only at hb
  split at hb
  · cases hb
  next hnew =>
    repeat (obtain ⟨_, -, hb⟩ := Except.exists_of_bind_eq_ok hb)
    cases hb
    exact ⟨rfl, nodup_cons_of_not_contains hnew hnd⟩

theorem relationshipNames_nodup_of_validateRelationships {s : Schema}
    (h : t.validateRelationships s = .ok ()) : t.relationshipNames.Nodup := by
  unfold validateRelationships at h
  obtain ⟨_, hfold, -⟩ := Except.exists_of_bind_eq_ok h
  have := Except.nodup_flatMap_of_foldlM (fun names : List String => names)
    (fun r : Relationship => [r.name]) ?_ hfold rfl
  · rwa [relationshipNames, List.map_eq_flatMap]
  intro names r names' hb hnd
  dsimp only at hb
  split at hb
  · cases hb
  next hnew =>
    repeat (obtain ⟨_, -, hb⟩ := Except.exists_of_bind_eq_ok hb)
    cases hb
    exact ⟨rfl, nodup_cons_of_not_contains hnew hnd⟩

end Table

namespace Schema

variable {s : Schema}

theorem indexNames_nodup_of_validate (h : s.validate = .ok ()) : s.indexNames.Nodup := by
  unfold validate at h
  obtain ⟨_, hfold, -⟩ := Except.exists_of_bind_eq_ok h
  refine Except.nodup_flatMap_of_foldlM (·.2.1) Table.indexNames ?_ hfold rfl
  rintro ⟨tables, indexes, constraints⟩ t acc' hb hnd
  dsimp only at hb ⊢
  split at hb
  · cases hb
  · -- the owner is checked, then the index names are folded in
    obtain ⟨_, -, hb⟩ := Except.exists_of_bind_eq_ok hb
    obtain ⟨indexes', hidx, hb⟩ := Except.exists_of_bind_eq_ok hb
    obtain ⟨heq, hnd'⟩ := Except.names_foldlM t.indexes hidx hnd
    repeat (obtain ⟨_, -, hb⟩ := Except.exists_of_bind_eq_ok hb)
    cases hb
    exact ⟨heq, hnd'⟩

theorem constraintNames_nodup_of_validate (h : s.validate = .ok ()) : s.constraintNames.Nodup := by
  unfold validate at h
  obtain ⟨_, hfold, -⟩ := Except.exists_of_bind_eq_ok h
  refine Except.nodup_flatMap_of_foldlM (·.2.2) Table.constraintNames ?_ hfold rfl
  rintro ⟨tables, indexes, constraints⟩ t acc' hb hnd
  dsimp only at hb ⊢
  split at hb
  · cases hb
  · -- the owner and the index names come first, then the constraint names
    obtain ⟨_, -, hb⟩ := Except.exists_of_bind_eq_ok hb
    obtain ⟨_, -, hb⟩ := Except.exists_of_bind_eq_ok hb
    obtain ⟨constraints', hks, hb⟩ := Except.exists_of_bind_eq_ok hb
    obtain ⟨heq, hnd'⟩ := Except.names_foldlM t.constraints hks hnd
    repeat (obtain ⟨_, -, hb⟩ := Except.exists_of_bind_eq_ok hb)
    cases hb
    exact ⟨heq, hnd'⟩

theorem namesUnique_of_validate (h : s.validate = .ok ()) : s.NamesUnique where
  tables := names_nodup_of_validate h
  indexes := indexNames_nodup_of_validate h
  constraints := constraintNames_nodup_of_validate h
  inTables t ht := ⟨Table.columnNames_nodup_of_validateParts (validateParts_of_validate h t ht),
    Table.relationshipNames_nodup_of_validateRelationships (validateRelationships_of_validate h t ht)⟩

end Schema

/-- A table's index ids and constraint ids are among its labelled ids. -/
theorem Table.indexIds_sublist_labelledIds (t : Table) :
    List.Sublist (t.indexes.map (·.id)) (t.labelledIds.map (·.2)) := by
  have hi : List.Sublist (t.indexes.map (·.id))
      ((t.indexes.flatMap fun i =>
        ("index", i.id) :: i.columns.map fun c => ("index column", c.id)).map (·.2)) := by
    rw [List.map_flatMap, List.map_eq_flatMap]
    exact List.Sublist.flatMap_right _ fun i _ => by simp
  simp only [Table.labelledIds, List.map_append]
  exact ((hi.trans (List.sublist_append_right _ _)).trans (List.sublist_append_left _ _)).trans
    (List.sublist_append_left _ _)

theorem Table.constraintIds_sublist_labelledIds (t : Table) :
    List.Sublist (t.constraints.map (·.id)) (t.labelledIds.map (·.2)) := by
  have hk : List.Sublist (t.constraints.map (·.id))
      ((t.constraints.flatMap fun k =>
        ("constraint", k.id) :: k.columns.map fun c => ("constraint column", c.id)).map (·.2)) := by
    rw [List.map_flatMap, List.map_eq_flatMap]
    exact List.Sublist.flatMap_right _ fun k _ => by simp
  simp only [Table.labelledIds, List.map_append]
  exact (hk.trans (List.sublist_append_right _ _)).trans (List.sublist_append_left _ _)

namespace Database

variable {db : Database}

theorem schemaNames_nodup_of_validate (h : db.validate = .ok ()) :
    (db.schemas.map (·.name)).Nodup := by
  unfold validate at h
  obtain ⟨_, -, h⟩ := Except.exists_of_bind_eq_ok h
  obtain ⟨_, hfold, -⟩ := Except.exists_of_bind_eq_ok h
  rw [List.map_eq_flatMap]
  refine Except.nodup_flatMap_of_foldlM (fun names : List String => names)
    (fun s : Schema => [s.name]) ?_ hfold rfl
  intro names s names' hb hnd
  dsimp only at hb
  split at hb
  · cases hb
  next hnew =>
    repeat (obtain ⟨_, -, hb⟩ := Except.exists_of_bind_eq_ok hb)
    cases hb
    exact ⟨rfl, nodup_cons_of_not_contains hnew hnd⟩

/-- An accepted snapshot has unique names in every scope. -/
theorem namesUnique_of_validate (h : db.validate = .ok ()) : db.NamesUnique where
  schemas := schemaNames_nodup_of_validate h
  inSchemas s hs := Schema.namesUnique_of_validate (schemas_validate h s hs)

theorem indexIds_nodup (hn : (db.labelledIds.map (·.2)).Nodup) {s : Schema} (hs : s ∈ db.schemas) :
    (s.indexes.map (·.id)).Nodup := by
  refine List.Nodup.sublist ?_ hn
  refine List.Sublist.trans ?_ (tables_labelledIds_sublist hs)
  rw [List.map_flatMap, Schema.indexes, List.map_flatMap]
  exact List.Sublist.flatMap_right _ fun t _ => t.indexIds_sublist_labelledIds

theorem constraintIds_nodup (hn : (db.labelledIds.map (·.2)).Nodup) {s : Schema}
    (hs : s ∈ db.schemas) : (s.constraints.map (·.id)).Nodup := by
  refine List.Nodup.sublist ?_ hn
  refine List.Sublist.trans ?_ (tables_labelledIds_sublist hs)
  rw [List.map_flatMap, Schema.constraints, List.map_flatMap]
  exact List.Sublist.flatMap_right _ fun t _ => t.constraintIds_sublist_labelledIds

end Database

/-! ## Lists of names under a change -/

/-- Renaming the first item with key `k` to `n` keeps the names distinct, when the keys are
distinct and only items with key `k` have the name `n`. -/
theorem nodup_map_updateFirst_rename {α : Type} {key : α → Id} {name : α → String}
    {rename : α → α} {k : Id} {n : String} (hname : ∀ x, name (rename x) = n) :
    ∀ {xs : List α}, (xs.map key).Nodup → (xs.map name).Nodup →
      (∀ x ∈ xs, name x = n → key x = k) → ((updateFirst (key · = k) rename xs).map name).Nodup
  | [], _, _, _ => by simp [updateFirst]
  | x :: xs, hid, hn, hfree => by
    rw [List.map_cons, List.nodup_cons] at hid hn
    unfold updateFirst
    split
    next hx =>
      -- `x` is renamed; a later item with the new name would have `x`'s key
      refine List.nodup_cons.2 ⟨fun hm => ?_, hn.2⟩
      obtain ⟨u, hu, hun⟩ := List.mem_map.1 hm
      have hxk : key x = k := by simpa using hx
      have hux : key u = key x := (hfree u (List.mem_cons_of_mem _ hu) (hun.trans (hname x))).trans hxk.symm
      exact hid.1 (List.mem_map.2 ⟨u, hu, hux⟩)
    next hx =>
      refine List.nodup_cons.2 ⟨fun hm => ?_,
        nodup_map_updateFirst_rename hname hid.2 hn.2 fun u hu => hfree u (List.mem_cons_of_mem _ hu)⟩
      obtain ⟨u, hu, hun⟩ := List.mem_map.1 hm
      rcases mem_updateFirst hu with hu | ⟨y, -, rfl⟩
      · exact hn.1 (List.mem_map.2 ⟨u, hu, hun⟩)
      · -- `x` would have the new name, hence the key `k`
        exact hx (by simpa using hfree x List.mem_cons_self (hun.symm.trans (hname y)))

theorem mem_flatMap_updateFirst {α β : Type} {p : α → Bool} {f : α → α} {g : α → List β}
    {xs : List α} {b : β} (h : b ∈ (updateFirst p f xs).flatMap g) :
    b ∈ xs.flatMap g ∨ ∃ x, xs.find? p = some x ∧ b ∈ g (f x) := by
  obtain ⟨y, hy, hb⟩ := List.mem_flatMap.1 h
  rcases mem_updateFirst hy with hy | ⟨x, hx, rfl⟩
  · exact .inl (List.mem_flatMap.2 ⟨y, hy, hb⟩)
  · exact .inr ⟨x, hx, hb⟩

/-- Changing the first item that matches keeps the contributions distinct, when the changed item
contributes distinct values, each of them one the item contributed or one no item did. -/
theorem nodup_flatMap_updateFirst {α β : Type} {p : α → Bool} {f : α → α} {g : α → List β} :
    ∀ {xs : List α} {x : α}, xs.find? p = some x → (xs.flatMap g).Nodup → (g (f x)).Nodup →
      (∀ b ∈ g (f x), b ∈ xs.flatMap g → b ∈ g x) → ((updateFirst p f xs).flatMap g).Nodup
  | [], _, hx, _, _, _ => by simp at hx
  | y :: ys, x, hx, hnd, hfx, hfree => by
    rw [List.flatMap_cons, List.nodup_append] at hnd
    obtain ⟨hndy, hndys, hdisj⟩ := hnd
    unfold updateFirst
    split
    next hy =>
      rw [List.find?_cons_of_pos hy, Option.some.injEq] at hx
      subst hx
      rw [List.flatMap_cons, List.nodup_append]
      refine ⟨hfx, hndys, fun b hb c hc hbc => ?_⟩
      subst hbc
      have hold := hfree b hb (by rw [List.flatMap_cons]; exact List.mem_append_right _ hc)
      exact hdisj b hold b hc rfl
    next hy =>
      rw [List.find?_cons_of_neg hy] at hx
      have hxs : x ∈ ys := List.mem_of_find?_eq_some hx
      rw [List.flatMap_cons, List.nodup_append]
      refine ⟨hndy, nodup_flatMap_updateFirst hx hndys hfx fun b hb hys => ?_, fun b hb c hc hbc => ?_⟩
      · exact hfree b hb (by rw [List.flatMap_cons]; exact List.mem_append_right _ hys)
      · subst hbc
        rcases mem_flatMap_updateFirst hc with hc | ⟨x', hx', hc⟩
        · exact hdisj b hb b hc rfl
        · -- a value of the changed item that `y` contributes is one the item contributed
          rw [hx] at hx'
          cases hx'
          have hold := hfree b hc (by rw [List.flatMap_cons]; exact List.mem_append_left _ hb)
          exact hdisj b hb b (List.mem_flatMap.2 ⟨x, hxs, hold⟩) rfl

/-! ## Table changes that bring in no name -/

theorem map_name_map {α : Type} {name : α → String} {f : α → α} (hf : ∀ x, name (f x) = name x)
    (xs : List α) : (xs.map f).map name = xs.map name := by
  rw [List.map_map]
  exact List.map_congr_left fun x _ => hf x

theorem filter_map_names_sublist {α : Type} {name : α → String} {f : α → α}
    (hf : ∀ x, name (f x) = name x) (p : α → Bool) (xs : List α) :
    (((xs.map f).filter p).map name).Sublist (xs.map name) := by
  rw [← map_name_map hf xs]
  exact List.filter_sublist.map _

namespace Table

/-- `t'` keeps the name of `t`, and each of its lists of names is part of the list of `t`. -/
structure NamesWithin (t t' : Table) : Prop where
  name : t'.name = t.name
  columns : t'.columnNames.Sublist t.columnNames
  indexes : t'.indexNames.Sublist t.indexNames
  constraints : t'.constraintNames.Sublist t.constraintNames
  relationships : t'.relationshipNames.Sublist t.relationshipNames

theorem NamesWithin.refl (t : Table) : t.NamesWithin t :=
  ⟨rfl, .refl _, .refl _, .refl _, .refl _⟩

theorem NamesWithin.trans {t₁ t₂ t₃ : Table} (h₁ : t₁.NamesWithin t₂) (h₂ : t₂.NamesWithin t₃) :
    t₁.NamesWithin t₃ :=
  ⟨h₂.name.trans h₁.name, h₂.columns.trans h₁.columns, h₂.indexes.trans h₁.indexes,
    h₂.constraints.trans h₁.constraints, h₂.relationships.trans h₁.relationships⟩

instance : IsPreorder Table NamesWithin where
  refl := NamesWithin.refl
  trans _ _ _ := NamesWithin.trans

variable {t t' : Table}

theorem namesWithin_of_eq (hname : t'.name = t.name) (hcolumns : t'.columnNames = t.columnNames)
    (hindexes : t'.indexNames = t.indexNames) (hconstraints : t'.constraintNames = t.constraintNames)
    (hrelationships : t'.relationshipNames = t.relationshipNames) : t.NamesWithin t' :=
  ⟨hname, hcolumns ▸ .refl _, hindexes ▸ .refl _, hconstraints ▸ .refl _,
    hrelationships ▸ .refl _⟩

theorem namesWithin_pruneRedundantKeys (t : Table) : t.NamesWithin t.pruneRedundantKeys where
  name := pruneRedundantKeys_name t
  columns := by simp [columnNames]
  indexes := by
    rw [indexNames, indexNames, pruneRedundantKeys_indexes]
    exact (dedupBy_sublist _ _).map _
  constraints := (pruneRedundantKeys_constraints_sublist t).map _
  relationships := by simp [relationshipNames]

/-- Detaching a column drops names and renames nothing. -/
theorem namesWithin_detachColumn (t : Table) (c : Id) : t.NamesWithin (t.detachColumn c).1 := by
  unfold detachColumn
  split
  · refine NamesWithin.trans ?_ (namesWithin_pruneRedundantKeys _)
    refine ⟨rfl, ?_, ?_, ?_, ?_⟩
    · simp only [columnNames]
      rw [@map_renumber Column String (fun c n => { c with ordinalPosition := n }) (·.name)
        (fun _ _ => rfl)]
      exact List.eraseP_sublist.map _
    · simp only [indexNames]
      exact filter_map_names_sublist (fun _ => by rfl) _ _
    · simp only [constraintNames]
      exact filter_map_names_sublist (fun _ => by rfl) _ _
    · simp only [relationshipNames]
      exact filter_map_names_sublist (fun _ => by rfl) _ _
  · exact NamesWithin.refl t

theorem namesWithin_foldl_detachColumn : ∀ (cs : List Id) (t : Table),
    t.NamesWithin (cs.foldl (fun t c => (t.detachColumn c).1) t)
  | [], t => NamesWithin.refl t
  | c :: cs, t => (namesWithin_detachColumn t c).trans (namesWithin_foldl_detachColumn cs _)

/-- Changing one relationship without renaming it, then dropping those left without mappings:
how a cascade drops one mapping. -/
theorem namesWithin_stripRelationship (t : Table) (p q : Relationship → Bool)
    {f : Relationship → Relationship} (hf : ∀ r, (f r).name = r.name) :
    t.NamesWithin { t with relationships := (updateFirst p f t.relationships).filter q } := by
  refine ⟨rfl, .refl _, .refl _, .refl _, ?_⟩
  have hmap : (updateFirst p f t.relationships).map (·.name) = t.relationships.map (·.name) :=
    map_updateFirst_of_key _ fun r _ => hf r
  simp only [relationshipNames]
  rw [← hmap]
  exact List.filter_sublist.map _

theorem namesWithin_removeKeyColumns (t : Table) (cs : List Id) :
    t.NamesWithin ({ t with constraints := ((t.constraints.map fun k =>
      if k.kind = .primaryKey then k.withoutColumns cs else k).filter
        fun k => !(k.kind = .primaryKey && k.columns.isEmpty)) } : Table).pruneRedundantKeys := by
  refine NamesWithin.trans ?_ (namesWithin_pruneRedundantKeys _)
  refine ⟨rfl, .refl _, .refl _, ?_, .refl _⟩
  refine filter_map_names_sublist (fun k => ?_) _ _
  split <;> rfl

theorem namesWithin_eraseRelationship (t : Table) (p : Relationship → Bool) :
    t.NamesWithin { t with relationships := t.relationships.eraseP p } :=
  ⟨rfl, .refl _, .refl _, .refl _, List.eraseP_sublist.map _⟩

theorem namesWithin_filterIndexes (t : Table) (p : Index → Bool) :
    t.NamesWithin { t with indexes := t.indexes.filter p } :=
  ⟨rfl, .refl _, List.filter_sublist.map _, .refl _, .refl _⟩

theorem namesWithin_filterConstraints (t : Table) (p : Constraint → Bool) :
    t.NamesWithin { t with constraints := t.constraints.filter p } :=
  ⟨rfl, .refl _, .refl _, List.filter_sublist.map _, .refl _⟩

theorem namesWithin_updateColumn (t : Table) (cid : Id) {f : Column → Column}
    (hf : ∀ c, (f c).name = c.name) : t.NamesWithin (t.updateColumn cid f) :=
  namesWithin_of_eq rfl (map_updateFirst_of_key _ fun c _ => hf c) rfl rfl rfl

theorem namesWithin_updateIndex (t : Table) (iid : Id) {f : Index → Index}
    (hf : ∀ i, (f i).name = i.name) : t.NamesWithin (t.updateIndex iid f) :=
  namesWithin_of_eq rfl rfl (map_updateFirst_of_key _ fun i _ => hf i) rfl rfl

theorem namesWithin_updateConstraint (t : Table) (kid : Id) {f : Constraint → Constraint}
    (hf : ∀ k, (f k).name = k.name) : t.NamesWithin (t.updateConstraint kid f) :=
  namesWithin_of_eq rfl rfl rfl (map_updateFirst_of_key _ fun k _ => hf k) rfl

theorem namesWithin_changeRelationship (t : Table) (rid : Id) {f : Relationship → Relationship}
    (hf : ∀ r, (f r).name = r.name) : t.NamesWithin (t.changeRelationship rid f) :=
  namesWithin_of_eq rfl rfl rfl rfl (map_updateFirst_of_key _ fun r _ => hf r)

theorem namesWithin_editRelationship (t : Table) (rid : Id) {f : Relationship → Relationship}
    (hf : ∀ r, (f r).name = r.name) : t.NamesWithin (t.editRelationship rid f) := by
  refine ⟨rfl, .refl _, .refl _, .refl _, ?_⟩
  refine filter_map_names_sublist (fun r => ?_) _ _
  split
  · exact hf r
  · rfl

end Table

/-! ## Table changes that bring in a name -/

theorem insertAt_perm {α : Type} (xs : List α) (i : Nat) (x : α) : (insertAt xs i x).Perm (x :: xs) := by
  unfold insertAt
  refine List.perm_middle.trans ?_
  rw [List.take_append_drop]

/-- The first item satisfying `p`, taken out and put in front. -/
theorem perm_cons_eraseP_of_find? {α : Type} {p : α → Bool} :
    ∀ {xs : List α} {x : α}, xs.find? p = some x → xs.Perm (x :: xs.eraseP p)
  | [], _, h => by simp at h
  | y :: ys, x, h => by
    by_cases hy : p y
    · rw [List.find?_cons_of_pos hy] at h
      cases h
      rw [List.eraseP_cons_of_pos hy]
    · rw [List.find?_cons_of_neg hy] at h
      rw [List.eraseP_cons_of_neg hy]
      exact ((perm_cons_eraseP_of_find? h).cons y).trans (List.Perm.swap x y _)

namespace Table

/-- `t'` may stand for `t` in the schema `s`: it keeps the name of `t`, its own names are
distinct, and an index or constraint name it has that the schema has is one `t` has. -/
structure NamesFit (s : Schema) (t t' : Table) : Prop where
  name : t'.name = t.name
  own : t'.NamesUnique
  indexes : t'.indexNames.Nodup
  indexesFree : ∀ n ∈ t'.indexNames, n ∈ s.indexNames → n ∈ t.indexNames
  constraints : t'.constraintNames.Nodup
  constraintsFree : ∀ n ∈ t'.constraintNames, n ∈ s.constraintNames → n ∈ t.constraintNames

variable {s : Schema} {t t' : Table}

theorem NamesFit.within {t'' : Table} (h : t.NamesFit s t') (h' : t'.NamesWithin t'') :
    t.NamesFit s t'' where
  name := h'.name.trans h.name
  own := ⟨h.own.columns.sublist h'.columns, h.own.relationships.sublist h'.relationships⟩
  indexes := h.indexes.sublist h'.indexes
  indexesFree n hn := h.indexesFree n (h'.indexes.subset hn)
  constraints := h.constraints.sublist h'.constraints
  constraintsFree n hn := h.constraintsFree n (h'.constraints.subset hn)

/-- A change that brings in no name fits in a schema with unique names. -/
theorem NamesWithin.fit (hs : s.NamesUnique) (ht : t ∈ s.tables) (h : t.NamesWithin t') :
    t.NamesFit s t' where
  name := h.name
  own := ⟨(hs.inTables t ht).columns.sublist h.columns,
    (hs.inTables t ht).relationships.sublist h.relationships⟩
  indexes := (hs.tableIndexNames ht).sublist h.indexes
  indexesFree _ hn _ := h.indexes.subset hn
  constraints := (hs.tableConstraintNames ht).sublist h.constraints
  constraintsFree _ hn _ := h.constraints.subset hn

/-- A change of the columns alone, to columns with distinct names. -/
theorem fit_of_columns (hs : s.NamesUnique) (ht : t ∈ s.tables) (hname : t'.name = t.name)
    (hindexes : t'.indexes = t.indexes) (hconstraints : t'.constraints = t.constraints)
    (hrels : t'.relationships = t.relationships) (hcolumns : t'.columnNames.Nodup) :
    t.NamesFit s t' :=
  have hw : t.NamesWithin { t' with columns := t.columns } :=
    namesWithin_of_eq hname rfl (by simp [indexNames, hindexes])
      (by simp [constraintNames, hconstraints]) (by simp [relationshipNames, hrels])
  have hf := hw.fit hs ht
  ⟨hname, ⟨hcolumns, hf.own.relationships⟩, hf.indexes, hf.indexesFree, hf.constraints,
    hf.constraintsFree⟩

theorem columnNames_resequenceColumns (t : Table) : t.resequenceColumns.columnNames = t.columnNames :=
  @map_renumber Column String (fun c n => { c with ordinalPosition := n }) (·.name) (fun _ _ => rfl)
    t.columns

theorem fit_insertColumn (hs : s.NamesUnique) (ht : t ∈ s.tables) (i : Nat) {c : Column}
    (hc : c.name ∉ t.columnNames) : t.NamesFit s (t.insertColumn i c) := by
  refine fit_of_columns hs ht rfl rfl rfl rfl ?_
  rw [insertColumn, columnNames_resequenceColumns]
  refine ((insertAt_perm _ _ _).map _).nodup_iff.2 ?_
  exact List.nodup_cons.2 ⟨hc, (hs.inTables t ht).columns⟩

theorem fit_appendColumn (hs : s.NamesUnique) (ht : t ∈ s.tables) {c : Column}
    (hc : c.name ∉ t.columnNames) :
    t.NamesFit s ({ t with columns := t.columns ++ [c] } : Table).resequenceColumns := by
  refine fit_of_columns hs ht rfl rfl rfl rfl ?_
  rw [columnNames_resequenceColumns]
  simp only [columnNames, List.map_append, List.map_singleton]
  rw [← List.concat_eq_append]
  exact (hs.inTables t ht).columns.concat hc

theorem fit_moveColumn (hs : s.NamesUnique) (ht : t ∈ s.tables) {cid : Id} {c : Column}
    (hc : t.columns.find? (·.id = cid) = some c) (i : Nat) :
    t.NamesFit s ({ t with columns := insertAt (t.columns.eraseP (·.id = cid)) i c } :
      Table).resequenceColumns := by
  refine fit_of_columns hs ht rfl rfl rfl rfl ?_
  rw [columnNames_resequenceColumns]
  refine (((insertAt_perm _ _ _).trans (perm_cons_eraseP_of_find? hc).symm).map _).nodup_iff.2 ?_
  exact (hs.inTables t ht).columns

/-- An index with a name no index of the schema has, appended. -/
theorem fit_appendIndex (hs : s.NamesUnique) (ht : t ∈ s.tables) {i : Index}
    (hi : i.name ∉ s.indexNames) : t.NamesFit s { t with indexes := t.indexes ++ [i] } := by
  have hw : t.NamesWithin t := NamesWithin.refl t
  have hf := hw.fit hs ht
  have hit : i.name ∉ t.indexNames := fun h =>
    hi (List.mem_flatMap.2 ⟨t, ht, h⟩)
  refine ⟨rfl, ⟨hf.own.columns, hf.own.relationships⟩, ?_, fun n hn hns => ?_, hf.constraints,
    hf.constraintsFree⟩
  · simp only [indexNames, List.map_append, List.map_singleton]
    rw [← List.concat_eq_append]
    exact hf.indexes.concat hit
  · simp only [indexNames, List.map_append, List.map_singleton, List.mem_append,
      List.mem_singleton] at hn
    rcases hn with hn | rfl
    · exact hn
    · exact absurd hns hi

/-- A constraint with a name no constraint of the schema has, appended. -/
theorem fit_appendConstraint (hs : s.NamesUnique) (ht : t ∈ s.tables) {k : Constraint}
    (hk : k.name ∉ s.constraintNames) :
    t.NamesFit s { t with constraints := t.constraints ++ [k] } := by
  have hf := (NamesWithin.refl t).fit hs ht
  have hkt : k.name ∉ t.constraintNames := fun h =>
    hk (List.mem_flatMap.2 ⟨t, ht, h⟩)
  refine ⟨rfl, ⟨hf.own.columns, hf.own.relationships⟩, hf.indexes, hf.indexesFree, ?_,
    fun n hn hns => ?_⟩
  · simp only [constraintNames, List.map_append, List.map_singleton]
    rw [← List.concat_eq_append]
    exact hf.constraints.concat hkt
  · simp only [constraintNames, List.map_append, List.map_singleton, List.mem_append,
      List.mem_singleton] at hn
    rcases hn with hn | rfl
    · exact hn
    · exact absurd hns hk

/-- A relationship with a name no relationship of the table has, appended. -/
theorem fit_appendRelationship (hs : s.NamesUnique) (ht : t ∈ s.tables) {r : Relationship}
    (hr : r.name ∉ t.relationshipNames) :
    t.NamesFit s { t with relationships := t.relationships ++ [r] } := by
  have hf := (NamesWithin.refl t).fit hs ht
  refine ⟨rfl, ⟨hf.own.columns, ?_⟩, hf.indexes, hf.indexesFree, hf.constraints,
    hf.constraintsFree⟩
  simp only [relationshipNames, List.map_append, List.map_singleton]
  rw [← List.concat_eq_append]
  exact hf.own.relationships.concat hr

theorem fit_renameColumn (hs : s.NamesUnique) (ht : t ∈ s.tables)
    (hids : (t.columns.map (·.id)).Nodup) {cid : Id} {name : String}
    (hfree : ∀ c ∈ t.columns, c.name = name → c.id = cid) :
    t.NamesFit s (t.updateColumn cid fun c => { c with name }) :=
  fit_of_columns hs ht rfl rfl rfl rfl
    (nodup_map_updateFirst_rename (fun _ => by rfl) hids (hs.inTables t ht).columns hfree)

theorem fit_renameRelationship (hs : s.NamesUnique) (ht : t ∈ s.tables)
    (hids : (t.relationships.map (·.id)).Nodup) {rid : Id} {name : String}
    (hfree : ∀ r ∈ t.relationships, r.name = name → r.id = rid) :
    t.NamesFit s (t.changeRelationship rid fun r => { r with name }) := by
  have hf := (NamesWithin.refl t).fit hs ht
  exact ⟨rfl, ⟨hf.own.columns, nodup_map_updateFirst_rename (fun _ => by rfl) hids
    hf.own.relationships hfree⟩, hf.indexes, hf.indexesFree, hf.constraints, hf.constraintsFree⟩

/-- An index renamed to a name only it may have in the schema, where index ids are distinct. -/
theorem fit_renameIndex (hs : s.NamesUnique) (ht : t ∈ s.tables)
    (hids : (s.indexes.map (·.id)).Nodup) {iid : Id} {name : String}
    (hfree : ∀ i ∈ s.indexes, i.name = name → i.id = iid) :
    t.NamesFit s (t.updateIndex iid fun i => { i with name }) := by
  have hf := (NamesWithin.refl t).fit hs ht
  have hsub : t.indexes ⊆ s.indexes := fun i hi => List.mem_flatMap.2 ⟨t, ht, hi⟩
  have hidt : (t.indexes.map (·.id)).Nodup := by
    refine hids.sublist ?_
    rw [Schema.indexes, List.map_flatMap, List.flatMap_def]
    exact List.sublist_flatten_of_mem (List.mem_map_of_mem ht)
  refine ⟨rfl, ⟨hf.own.columns, hf.own.relationships⟩,
    nodup_map_updateFirst_rename (fun _ => by rfl) hidt hf.indexes
    fun i hi => hfree i (hsub hi), fun n hn hns => ?_, hf.constraints, hf.constraintsFree⟩
  obtain ⟨i, hi, rfl⟩ := List.mem_map.1 hn
  rcases mem_updateFirst hi with hi | ⟨i₀, hi₀, rfl⟩
  · exact List.mem_map_of_mem hi
  · -- the new name is in the schema only on the index renamed, by distinct ids
    rw [← Schema.indexes_map_name] at hns
    obtain ⟨i', hi', hname⟩ := List.mem_map.1 hns
    have hi₀t := List.mem_of_find?_eq_some hi₀
    have hid₀ : i₀.id = iid := by simpa using List.find?_some hi₀
    have : i' = i₀ := List.inj_on_of_nodup_map hids hi' (hsub hi₀t)
      ((hfree i' hi' hname).trans hid₀.symm)
    subst this
    exact hname ▸ List.mem_map_of_mem hi₀t

/-- A constraint renamed to a name only it may have in the schema, where constraint ids are
distinct. -/
theorem fit_renameConstraint (hs : s.NamesUnique) (ht : t ∈ s.tables)
    (hids : (s.constraints.map (·.id)).Nodup) {kid : Id} {name : String}
    (hfree : ∀ k ∈ s.constraints, k.name = name → k.id = kid) :
    t.NamesFit s (t.updateConstraint kid fun k => { k with name }) := by
  have hf := (NamesWithin.refl t).fit hs ht
  have hsub : t.constraints ⊆ s.constraints := fun k hk => List.mem_flatMap.2 ⟨t, ht, hk⟩
  have hidt : (t.constraints.map (·.id)).Nodup := by
    refine hids.sublist ?_
    rw [Schema.constraints, List.map_flatMap, List.flatMap_def]
    exact List.sublist_flatten_of_mem (List.mem_map_of_mem ht)
  refine ⟨rfl, ⟨hf.own.columns, hf.own.relationships⟩, hf.indexes, hf.indexesFree,
    nodup_map_updateFirst_rename (fun _ => by rfl) hidt
    hf.constraints fun k hk => hfree k (hsub hk), fun n hn hns => ?_⟩
  obtain ⟨k, hk, rfl⟩ := List.mem_map.1 hn
  rcases mem_updateFirst hk with hk | ⟨k₀, hk₀, rfl⟩
  · exact List.mem_map_of_mem hk
  · -- the new name is in the schema only on the constraint renamed, by distinct ids
    rw [← Schema.constraints_map_name] at hns
    obtain ⟨k', hk', hname⟩ := List.mem_map.1 hns
    have hk₀t := List.mem_of_find?_eq_some hk₀
    have hid₀ : k₀.id = kid := by simpa using List.find?_some hk₀
    have : k' = k₀ := List.inj_on_of_nodup_map hids hk' (hsub hk₀t)
      ((hfree k' hk' hname).trans hid₀.symm)
    subst this
    exact hname ▸ List.mem_map_of_mem hk₀t

end Table

/-! ## Snapshots under a change -/

theorem flatMap_updateFirst_of_key {α β : Type} {p : α → Bool} {f : α → α} {g : α → List β}
    (xs : List α) (hf : ∀ x, xs.find? p = some x → g (f x) = g x) :
    (updateFirst p f xs).flatMap g = xs.flatMap g := by
  rw [List.flatMap_def, List.flatMap_def, map_updateFirst_of_key xs hf]

namespace Schema

variable {s : Schema}

/-- Changing the table `tid` by a change that fits keeps the names of the schema unique. -/
theorem NamesUnique.updateTable (h : s.NamesUnique) {tid : Id} {t : Table}
    (ht : s.table? tid = some t) {f : Table → Table} (hfit : t.NamesFit s (f t)) :
    ({ s with tables := updateFirst (·.id = tid) f s.tables } : Schema).NamesUnique := by
  have hfound : ∀ x, s.tables.find? (·.id = tid) = some x → x = t := fun x hx =>
    Option.some.inj (hx.symm.trans ht)
  refine ⟨?_, nodup_flatMap_updateFirst ht h.indexes hfit.indexes hfit.indexesFree,
    nodup_flatMap_updateFirst ht h.constraints hfit.constraints hfit.constraintsFree,
    fun u hu => ?_⟩
  · show ((updateFirst _ f s.tables).map (·.name)).Nodup
    rw [map_updateFirst_of_key s.tables fun x hx => by rw [hfound x hx]; exact hfit.name]
    exact h.tables
  · rcases mem_updateFirst hu with hu | ⟨x, hx, rfl⟩
    · exact h.inTables u hu
    · rw [hfound x hx]
      exact hfit.own

/-- A new table without indexes and constraints, with a name no table of the schema has. -/
theorem NamesUnique.appendTable (h : s.NamesUnique) {u : Table} (hname : u.name ∉ s.tableNames)
    (hu : u.NamesUnique) (hindexes : u.indexes = []) (hconstraints : u.constraints = []) :
    ({ s with tables := s.tables ++ [u] } : Schema).NamesUnique := by
  refine ⟨?_, ?_, ?_, fun v hv => ?_⟩
  · show ((s.tables ++ [u]).map (·.name)).Nodup
    rw [List.map_append, List.map_singleton, ← List.concat_eq_append]
    exact h.tables.concat hname
  · show ((s.tables ++ [u]).flatMap Table.indexNames).Nodup
    rw [List.flatMap_append, List.flatMap_singleton, Table.indexNames, hindexes, List.map_nil,
      List.append_nil]
    exact h.indexes
  · show ((s.tables ++ [u]).flatMap Table.constraintNames).Nodup
    rw [List.flatMap_append, List.flatMap_singleton, Table.constraintNames, hconstraints,
      List.map_nil, List.append_nil]
    exact h.constraints
  · rcases List.mem_append.1 hv with hv | hv
    · exact h.inTables v hv
    · rw [List.mem_singleton.1 hv]
      exact hu

theorem NamesUnique.filterTables (h : s.NamesUnique) (p : Table → Bool) :
    ({ s with tables := s.tables.filter p } : Schema).NamesUnique where
  tables := h.tables.sublist (List.filter_sublist.map _)
  indexes := h.indexes.sublist (List.filter_sublist.flatMap _)
  constraints := h.constraints.sublist (List.filter_sublist.flatMap _)
  inTables v hv := h.inTables v (List.mem_of_mem_filter hv)

/-- A table renamed to a name only it may have, where table ids are distinct. -/
theorem NamesUnique.renameTable (h : s.NamesUnique) (hids : (s.tables.map (·.id)).Nodup)
    {tid : Id} {name : String} (hfree : ∀ u ∈ s.tables, u.name = name → u.id = tid) :
    ({ s with tables := updateFirst (·.id = tid) (fun t => { t with name }) s.tables } :
      Schema).NamesUnique := by
  refine ⟨nodup_map_updateFirst_rename (fun _ => by rfl) hids h.tables hfree, ?_, ?_,
    fun u hu => ?_⟩
  · show ((updateFirst _ _ s.tables).flatMap Table.indexNames).Nodup
    rw [flatMap_updateFirst_of_key s.tables]
    · exact h.indexes
    · intro _ _
      rfl
  · show ((updateFirst _ _ s.tables).flatMap Table.constraintNames).Nodup
    rw [flatMap_updateFirst_of_key s.tables]
    · exact h.constraints
    · intro _ _
      rfl
  · rcases mem_updateFirst hu with hu | ⟨x, hx, rfl⟩
    · exact h.inTables u hu
    · have hxu := h.inTables x (List.mem_of_find?_eq_some hx)
      exact ⟨hxu.columns, hxu.relationships⟩

end Schema

namespace Database

variable {db : Database}

/-- Changing the schema `sid` by a change that keeps its name and leaves its names unique keeps
the names of the snapshot unique. -/
theorem NamesUnique.updateSchema (h : db.NamesUnique) {sid : Id} {s : Schema}
    (hs : db.schema? sid = some s) {g : Schema → Schema} (hname : (g s).name = s.name)
    (hg : (g s).NamesUnique) :
    ({ db with schemas := updateFirst (·.id = sid) g db.schemas } : Database).NamesUnique := by
  have hfound : ∀ x, db.schemas.find? (·.id = sid) = some x → x = s := fun x hx =>
    Option.some.inj (hx.symm.trans hs)
  refine ⟨?_, fun u hu => ?_⟩
  · rw [map_updateFirst_of_key db.schemas fun x hx => by rw [hfound x hx]; exact hname]
    exact h.schemas
  · rcases mem_updateFirst hu with hu | ⟨x, hx, rfl⟩
    · exact h.inSchemas u hu
    · rw [hfound x hx]
      exact hg

theorem NamesUnique.schema {sid : Id} {s : Schema} (h : db.NamesUnique)
    (hs : db.schema? sid = some s) : s.NamesUnique :=
  h.inSchemas s (List.mem_of_find?_eq_some hs)

/-- Changing the table `tid` of the schema `sid` by a change that fits keeps the names of the
snapshot unique. -/
theorem NamesUnique.updateTable (h : db.NamesUnique) {sid tid : Id} {s : Schema} {t : Table}
    (hs : db.schema? sid = some s) (ht : s.table? tid = some t) {f : Table → Table}
    (hfit : t.NamesFit s (f t)) : (db.updateTable sid tid f).NamesUnique :=
  h.updateSchema hs rfl ((h.schema hs).updateTable ht hfit)

/-- A new schema without tables, with a name no schema of the snapshot has. -/
theorem NamesUnique.appendSchema (h : db.NamesUnique) {s : Schema}
    (hname : s.name ∉ db.schemas.map (·.name)) (htables : s.tables = []) :
    ({ db with schemas := db.schemas ++ [s] } : Database).NamesUnique := by
  refine ⟨?_, fun u hu => ?_⟩
  · show ((db.schemas ++ [s]).map (·.name)).Nodup
    rw [List.map_append, List.map_singleton, ← List.concat_eq_append]
    exact h.schemas.concat hname
  · rcases List.mem_append.1 hu with hu | hu
    · exact h.inSchemas u hu
    · rw [List.mem_singleton.1 hu]
      exact Schema.namesUnique_of_tables_eq_nil htables

theorem NamesUnique.filterSchemas (h : db.NamesUnique) (p : Schema → Bool) :
    ({ db with schemas := db.schemas.filter p } : Database).NamesUnique where
  schemas := h.schemas.sublist (List.filter_sublist.map _)
  inSchemas u hu := h.inSchemas u (List.mem_of_mem_filter hu)

/-- A schema renamed to a name only it may have, where schema ids are distinct. -/
theorem NamesUnique.renameSchema (h : db.NamesUnique) (hids : (db.schemas.map (·.id)).Nodup)
    {sid : Id} {name : String} (hfree : ∀ s ∈ db.schemas, s.name = name → s.id = sid) :
    ({ db with schemas := updateFirst (·.id = sid) (fun s => { s with name }) db.schemas } :
      Database).NamesUnique := by
  refine ⟨nodup_map_updateFirst_rename (fun _ => by rfl) hids h.schemas hfree, fun u hu => ?_⟩
  rcases mem_updateFirst hu with hu | ⟨x, hx, rfl⟩
  · exact h.inSchemas u hu
  · have hxu := h.inSchemas x (List.mem_of_find?_eq_some hx)
    exact ⟨hxu.tables, hxu.indexes, hxu.constraints, hxu.inTables⟩

end Database

end SchemaDesign
