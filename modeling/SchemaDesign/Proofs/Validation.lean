import Mathlib.Data.List.Flatten
import SchemaDesign.Proofs.Graph.Layered
import SchemaDesign.Validation

/-!
# What an accepted snapshot guarantees

`Database.validate` reports the first broken rule. When it reports none, every id of the
snapshot is distinct, and each schema has distinct table names and a dependency order without a
cycle, so every schema is `Layered`, and the relationships of a schema have distinct ids.

The checks are folds in the `Except` monad; a fold that succeeds ran each of its steps
successfully, which is what the lemmas below read off.
-/

namespace SchemaDesign

theorem Except.exists_of_bind_eq_ok {ε α β : Type} {x : Except ε α} {f : α → Except ε β} {b : β}
    (h : (x >>= f) = .ok b) : ∃ a, x = .ok a ∧ f a = .ok b := by
  cases x with
  | error e => cases h
  | ok a => exact ⟨a, rfl, h⟩

/-- A fold whose every successful step has a property of the item it took. -/
theorem Except.forall_of_foldlM_eq_ok {ε α γ : Type} {body : γ → α → Except ε γ} {P : α → Prop}
    (hbody : ∀ acc x acc', body acc x = .ok acc' → P x) :
    ∀ (xs : List α) (acc r : γ), xs.foldlM body acc = .ok r → ∀ x ∈ xs, P x
  | [], _, _, _ => by simp
  | x :: xs, acc, r, h => by
    rw [List.foldlM_cons] at h
    obtain ⟨acc', h₁, h₂⟩ := Except.exists_of_bind_eq_ok h
    intro y hy
    rcases List.mem_cons.1 hy with rfl | hy
    · exact hbody acc y acc' h₁
    · exact Except.forall_of_foldlM_eq_ok hbody xs acc' r h₂ y hy

/-- A check that passes holds. -/
theorem ensure_eq_ok {c : Bool} {e : DesignError} (h : ensure c e = .ok ()) : c = true := by
  unfold ensure at h
  split at h
  · assumption
  · cases h

/-! ## Repeated ids -/

/-- One step of `firstRepeat`: the keys seen so far, and the repeat once found. -/
def firstRepeatStep {α β : Type} [DecidableEq β] (key : α → β) (acc : List β × Option α) (x : α) :
    List β × Option α :=
  match acc.2 with
  | some _ => acc
  | none => if acc.1.contains (key x) then (acc.1, some x) else (key x :: acc.1, none)

section FirstRepeat

variable {α β : Type} [DecidableEq β] (key : α → β)

theorem firstRepeat_eq (xs : List α) :
    firstRepeat key xs = (xs.foldl (firstRepeatStep key) ([], none)).2 := rfl

/-- Before a repeat is found: none is found exactly when the remaining keys are distinct and
new. -/
theorem foldl_firstRepeatStep_eq_none : ∀ (xs : List α) (seen : List β),
    (xs.foldl (firstRepeatStep key) (seen, none)).2 = none ↔
      (xs.map key).Nodup ∧ ∀ x ∈ xs, key x ∉ seen
  | [], _ => by simp
  | x :: xs, seen => by
    simp only [List.foldl_cons, firstRepeatStep]
    split
    next hx =>
      -- a found repeat is kept to the end
      have hkeep : ∀ (ys : List α) (a : α),
          (ys.foldl (firstRepeatStep key) (seen, some a)).2 = some a := by
        intro ys a
        induction ys with
        | nil => rfl
        | cons _ _ ih => exact ih
      rw [hkeep]
      simp only [List.contains_iff_mem] at hx
      simp [hx]
    next hx =>
      rw [foldl_firstRepeatStep_eq_none xs (key x :: seen)]
      simp only [List.contains_iff_mem] at hx
      simp only [List.map_cons, List.nodup_cons, List.forall_mem_cons]
      simp only [List.mem_map, List.mem_cons, not_or]
      constructor
      · rintro ⟨hnd, hnew⟩
        exact ⟨⟨fun ⟨y, hy, hyx⟩ => (hnew y hy).1 hyx, hnd⟩, hx, fun y hy => (hnew y hy).2⟩
      · rintro ⟨⟨hnx, hnd⟩, -, hnew⟩
        exact ⟨hnd, fun y hy => ⟨fun hyx => hnx ⟨y, hy, hyx⟩, hnew y hy⟩⟩

theorem firstRepeat_eq_none_iff (xs : List α) : firstRepeat key xs = none ↔ (xs.map key).Nodup := by
  rw [firstRepeat_eq, foldl_firstRepeatStep_eq_none]
  simp

end FirstRepeat

/-! ## Ids of the parts -/

/-- A table's labelled ids start with its own and end with its relationships'. -/
theorem Table.ids_sublist_labelledIds (t : Table) :
    List.Sublist [t.id] (t.labelledIds.map (·.2)) ∧
      List.Sublist (t.relationships.map (·.id)) (t.labelledIds.map (·.2)) := by
  constructor
  · simp [Table.labelledIds]
  · have hr : List.Sublist (t.relationships.map (·.id))
        ((t.relationships.flatMap fun r =>
          ("relationship", r.id) :: r.columns.map fun m => ("relationship column", m.id)).map (·.2)) := by
      rw [List.map_flatMap, List.map_eq_flatMap]
      exact List.Sublist.flatMap_right _ fun r _ => by simp
    simp only [Table.labelledIds, List.map_append]
    exact hr.trans (List.sublist_append_right _ _)

theorem Table.columnIds_sublist_labelledIds (t : Table) :
    List.Sublist (t.columns.map (·.id)) (t.labelledIds.map (·.2)) := by
  simp only [Table.labelledIds, List.map_append, List.map_map]
  exact (((List.sublist_append_right _ _).trans (List.sublist_append_left _ _)).trans
    (List.sublist_append_left _ _)).trans (List.sublist_append_left _ _)

namespace Database

variable {db : Database} {s : Schema}

theorem tables_labelledIds_sublist (hs : s ∈ db.schemas) :
    List.Sublist ((s.tables.flatMap Table.labelledIds).map (·.2)) (db.labelledIds.map (·.2)) := by
  refine List.Sublist.map _ ?_
  unfold labelledIds
  refine List.Sublist.cons _ ((List.sublist_cons_self ("schema", s.id) _).trans ?_)
  rw [List.flatMap_def]
  exact List.sublist_flatten_of_mem (List.mem_map_of_mem hs)

theorem tableIds_nodup (hn : (db.labelledIds.map (·.2)).Nodup) (hs : s ∈ db.schemas) :
    (s.tables.map (·.id)).Nodup := by
  refine (List.Nodup.sublist ?_ hn)
  refine List.Sublist.trans ?_ (tables_labelledIds_sublist hs)
  rw [List.map_flatMap, List.map_eq_flatMap]
  exact List.Sublist.flatMap_right _ fun t _ => (Table.ids_sublist_labelledIds t).1

theorem columnIds_nodup (hn : (db.labelledIds.map (·.2)).Nodup) (hs : s ∈ db.schemas)
    {t : Table} (ht : t ∈ s.tables) : (t.columns.map (·.id)).Nodup := by
  refine List.Nodup.sublist ?_ hn
  refine (t.columnIds_sublist_labelledIds.trans ?_).trans (tables_labelledIds_sublist hs)
  rw [List.flatMap_def]
  exact List.Sublist.map _ (List.sublist_flatten_of_mem (List.mem_map_of_mem ht))

theorem relationshipIds_nodup (hn : (db.labelledIds.map (·.2)).Nodup) (hs : s ∈ db.schemas) :
    (s.relationships.map (·.id)).Nodup := by
  refine (List.Nodup.sublist ?_ hn)
  refine List.Sublist.trans ?_ (tables_labelledIds_sublist hs)
  rw [List.map_flatMap, Schema.relationships, List.map_flatMap]
  exact List.Sublist.flatMap_right _ fun t _ => (Table.ids_sublist_labelledIds t).2

end Database

namespace Table

variable {s : Schema} {t : Table}

theorem fkTableId_of_validateRelationship {r : Relationship}
    (h : t.validateRelationship s r = .ok ()) : r.fkTableId = t.id := by
  unfold validateRelationship at h
  obtain ⟨_, hens, -⟩ := Except.exists_of_bind_eq_ok h
  exact of_decide_eq_true (ensure_eq_ok hens)

/-- A table whose relationships are accepted has each of them accepted. -/
theorem validateRelationship_of_validateRelationships (h : t.validateRelationships s = .ok ()) :
    ∀ r ∈ t.relationships, t.validateRelationship s r = .ok () := by
  unfold validateRelationships at h
  obtain ⟨_, hfold, -⟩ := Except.exists_of_bind_eq_ok h
  refine Except.forall_of_foldlM_eq_ok ?_ _ _ _ hfold
  intro names r acc' hb
  dsimp only at hb
  split at hb
  · cases hb
  · obtain ⟨_, hv, -⟩ := Except.exists_of_bind_eq_ok hb
    exact hv

/-- A table whose parts are accepted has every column type accepted for the vendor. -/
theorem checkDataType_of_validateParts {vendor : Vendor} (h : t.validateParts vendor = .ok ()) :
    ∀ c ∈ t.columns, checkDataType vendor c.dataType c.lengthScale = .ok () := by
  unfold validateParts at h
  obtain ⟨_, hfold, -⟩ := Except.exists_of_bind_eq_ok h
  refine Except.forall_of_foldlM_eq_ok ?_ _ _ _ hfold
  intro acc c acc' hb
  dsimp only at hb
  split at hb
  · cases hb
  · -- the name, the owner and the position come before the type
    obtain ⟨_, -, hb⟩ := Except.exists_of_bind_eq_ok hb
    obtain ⟨_, -, hb⟩ := Except.exists_of_bind_eq_ok hb
    obtain ⟨u, hty, -⟩ := Except.exists_of_bind_eq_ok hb
    exact hty

/-- An accepted relationship maps each column onto one of a suiting type. -/
theorem typesCompatible_of_validateRelationship {r : Relationship}
    (h : t.validateRelationship s r = .ok ()) {p : Table} (hp : s.table? r.pkTableId = some p) :
    ∀ m ∈ r.columns, ∀ fk pk, t.column? m.fkColumnId = some fk → p.column? m.pkColumnId = some pk →
      typesCompatible fk pk = true := by
  unfold validateRelationship at h
  obtain ⟨_, -, h⟩ := Except.exists_of_bind_eq_ok h
  rw [hp] at h
  obtain ⟨_, -, h⟩ := Except.exists_of_bind_eq_ok h
  obtain ⟨_, hfold, -⟩ := Except.exists_of_bind_eq_ok h
  refine Except.forall_of_foldlM_eq_ok ?_ _ _ _ hfold
  intro n m n' hb fk pk hfk hpk
  obtain ⟨_, -, hb⟩ := Except.exists_of_bind_eq_ok hb
  rw [hfk] at hb
  dsimp only at hb
  rw [hpk] at hb
  obtain ⟨_, hcompat, -⟩ := Except.exists_of_bind_eq_ok hb
  exact ensure_eq_ok hcompat

end Table

namespace Schema

variable {s : Schema}

/-- Every table of an accepted schema has its relationships accepted. -/
theorem validateRelationships_of_validate (h : s.validate = .ok ()) :
    ∀ t ∈ s.tables, t.validateRelationships s = .ok () := by
  unfold validate at h
  obtain ⟨_, hfold, -⟩ := Except.exists_of_bind_eq_ok h
  refine Except.forall_of_foldlM_eq_ok ?_ _ _ _ hfold
  rintro ⟨tables, indexes, constraints⟩ t acc' hb
  dsimp only at hb
  split at hb
  · cases hb
  · -- the owner, the index and constraint names and the parts come before the relationships
    obtain ⟨_, -, hb⟩ := Except.exists_of_bind_eq_ok hb
    obtain ⟨_, -, hb⟩ := Except.exists_of_bind_eq_ok hb
    obtain ⟨_, -, hb⟩ := Except.exists_of_bind_eq_ok hb
    obtain ⟨_, -, hb⟩ := Except.exists_of_bind_eq_ok hb
    obtain ⟨_, hv, -⟩ := Except.exists_of_bind_eq_ok hb
    exact hv

/-- Every table of an accepted schema has its parts accepted for the schema's vendor. -/
theorem validateParts_of_validate (h : s.validate = .ok ()) :
    ∀ t ∈ s.tables, t.validateParts s.vendor = .ok () := by
  unfold validate at h
  obtain ⟨_, hfold, -⟩ := Except.exists_of_bind_eq_ok h
  refine Except.forall_of_foldlM_eq_ok ?_ _ _ _ hfold
  rintro ⟨tables, indexes, constraints⟩ t acc' hb
  dsimp only at hb
  split at hb
  · cases hb
  · -- the owner and the index and constraint names come before the parts
    obtain ⟨_, -, hb⟩ := Except.exists_of_bind_eq_ok hb
    obtain ⟨_, -, hb⟩ := Except.exists_of_bind_eq_ok hb
    obtain ⟨_, -, hb⟩ := Except.exists_of_bind_eq_ok hb
    obtain ⟨_, hv, -⟩ := Except.exists_of_bind_eq_ok hb
    exact hv

/-- The table-by-table pass of the schema check: each accepted table has a name not seen
before. -/
theorem foldlM_names {body : List String × List String × List String → Table →
      Except DesignError (List String × List String × List String)}
    (hbody : ∀ acc t acc', body acc t = .ok acc' → t.name ∉ acc.1 ∧ acc'.1 = t.name :: acc.1) :
    ∀ (ts : List Table) acc r, ts.foldlM body acc = .ok r →
      (ts.map (·.name)).Nodup ∧ ∀ t ∈ ts, t.name ∉ acc.1
  | [], _, _, _ => by simp
  | t :: ts, acc, r, h => by
    rw [List.foldlM_cons] at h
    obtain ⟨acc', h₁, h₂⟩ := Except.exists_of_bind_eq_ok h
    obtain ⟨hfresh, hacc'⟩ := hbody acc t acc' h₁
    obtain ⟨hnd, hnot⟩ := foldlM_names hbody ts acc' r h₂
    rw [hacc'] at hnot
    refine ⟨List.nodup_cons.2 ⟨?_, hnd⟩, ?_⟩
    · intro hm
      obtain ⟨u, hu, hun⟩ := List.mem_map.1 hm
      exact hnot u hu (hun ▸ List.mem_cons_self)
    · intro u hu
      rcases List.mem_cons.1 hu with rfl | hu
      · exact hfresh
      · exact fun hm => hnot u hu (List.mem_cons_of_mem _ hm)

/-- An accepted schema has distinct table names. -/
theorem names_nodup_of_validate (h : s.validate = .ok ()) : (s.tables.map (·.name)).Nodup := by
  unfold validate at h
  obtain ⟨r, hfold, -⟩ := Except.exists_of_bind_eq_ok h
  refine (foldlM_names ?_ _ _ _ hfold).1
  rintro ⟨tables, indexes, constraints⟩ t acc' hb
  dsimp only at hb
  split at hb
  · cases hb
  next hnew =>
    -- the rest of the step checks the table's parts and records its name
    repeat (obtain ⟨_, -, hb⟩ := Except.exists_of_bind_eq_ok hb)
    cases hb
    exact ⟨by simpa using hnew, rfl⟩

/-- An accepted schema has a dependency order without a cycle. -/
theorem identifyingOrder_of_validate (h : s.validate = .ok ()) : s.identifyingOrder.cycle = none := by
  unfold validate at h
  obtain ⟨r, -, h⟩ := Except.exists_of_bind_eq_ok h
  split at h
  · cases h
  · assumption

end Schema

namespace Database

variable {db : Database}

/-- An accepted snapshot has distinct ids. -/
theorem labelledIds_nodup_of_validate (h : db.validate = .ok ()) :
    (db.labelledIds.map (·.2)).Nodup := by
  unfold validate at h
  obtain ⟨_, hr, -⟩ := Except.exists_of_bind_eq_ok h
  unfold refuseSome at hr
  split at hr
  · cases hr
  next hnone => exact (firstRepeat_eq_none_iff _ _).1 hnone

/-- Each schema of an accepted snapshot is accepted. -/
theorem schemas_validate (h : db.validate = .ok ()) : ∀ s ∈ db.schemas, s.validate = .ok () := by
  unfold validate at h
  obtain ⟨_, -, h⟩ := Except.exists_of_bind_eq_ok h
  obtain ⟨_, hfold, -⟩ := Except.exists_of_bind_eq_ok h
  refine Except.forall_of_foldlM_eq_ok ?_ _ _ _ hfold
  intro names s acc' hb
  dsimp only at hb
  split at hb
  · cases hb
  · obtain ⟨_, -, hb⟩ := Except.exists_of_bind_eq_ok hb
    obtain ⟨_, hv, -⟩ := Except.exists_of_bind_eq_ok hb
    exact hv

theorem fkTableId_of_validate (h : db.validate = .ok ()) {s : Schema} (hs : s ∈ db.schemas)
    {t : Table} (ht : t ∈ s.tables) {r : Relationship} (hr : r ∈ t.relationships) :
    r.fkTableId = t.id :=
  Table.fkTableId_of_validateRelationship
    (Table.validateRelationship_of_validateRelationships
      (Schema.validateRelationships_of_validate (schemas_validate h s hs) t ht) r hr)

/-- Every schema of an accepted snapshot is layered. -/
theorem layered_of_validate (h : db.validate = .ok ()) : db.Layered := by
  intro s hs
  have hv := schemas_validate h s hs
  exact Schema.layered_of_identifyingOrder (tableIds_nodup (labelledIds_nodup_of_validate h) hs)
    (Schema.names_nodup_of_validate hv) (Schema.identifyingOrder_of_validate hv)

theorem schemaIds_nodup (hn : (db.labelledIds.map (·.2)).Nodup) : (db.schemas.map (·.id)).Nodup := by
  refine List.Nodup.sublist ?_ hn
  rw [labelledIds, List.map_cons, List.map_flatMap, List.map_eq_flatMap]
  exact List.Sublist.cons _ (List.Sublist.flatMap_right _ fun s _ => by simp)

theorem checkDataType_of_validate (h : db.validate = .ok ()) {s : Schema} (hs : s ∈ db.schemas)
    {t : Table} (ht : t ∈ s.tables) :
    ∀ c ∈ t.columns, checkDataType s.vendor c.dataType c.lengthScale = .ok () :=
  Table.checkDataType_of_validateParts (Schema.validateParts_of_validate (schemas_validate h s hs) t ht)

/-- In an accepted snapshot every mapping joins columns of suiting types. -/
theorem typesCompatible_of_validate (h : db.validate = .ok ()) {s : Schema} (hs : s ∈ db.schemas)
    {t : Table} (ht : t ∈ s.tables) {r : Relationship} (hr : r ∈ t.relationships) {p : Table}
    (hp : s.table? r.pkTableId = some p) :
    ∀ m ∈ r.columns, ∀ fk pk, t.column? m.fkColumnId = some fk → p.column? m.pkColumnId = some pk →
      typesCompatible fk pk = true :=
  Table.typesCompatible_of_validateRelationship
    (Table.validateRelationship_of_validateRelationships
      (Schema.validateRelationships_of_validate (schemas_validate h s hs) t ht) r hr) hp

end Database

end SchemaDesign
