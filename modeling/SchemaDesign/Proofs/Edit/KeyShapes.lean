import SchemaDesign.Proofs.Edit.Sequences

/-!
# Sound keys

The keys of a table are its indexes, its constraints, and the mappings of the relationships it
holds. They are sound (`Table.KeysSound`) when

- every index has columns, each once (`Index.WellFormed`), and no two indexes share a
  definition: access method, and columns in order with their directions (`Index.signature`);
- every constraint has columns, each once, exactly one for DEFAULT and NOT_NULL, and a non-blank
  expression for CHECK and DEFAULT (`Constraint.WellFormed`); no two constraints share a
  definition: kind, expressions, and columns in order (`Constraint.signature`); there is at most
  one PRIMARY_KEY, and no UNIQUE constraint has its column set (`KeyNotRestated`);
- every relationship maps each provider column and each holder column once
  (`Relationship.MapsOnce`).

`Database.validate` checks the distinct definitions and the single primary key, and nothing
else here: the rest is kept by the editor, not checked.

The table changes that operations make fall into a few kinds. Keeping some entries keeps sound
keys (`ConstraintsSound.sublist`). `pruneRedundantKeys` turns a table whose entries have their
shapes (`Table.KeysShaped`) into one with sound keys: the removals do that, taking entries off a
column and leaving the pruning to restore distinct definitions. An entry added or changed under
an id is followed by `ensureDistinctDefinition` or `ensureDistinctKey`, which compare it with
the entries of other ids: with distinct ids, that is every other entry
(`nodup_map_of_others`).
-/

namespace SchemaDesign

/-- Whether a text has a character other than a blank, as a CHECK or DEFAULT expression must. -/
def nonBlank (e : String) : Bool := !(trimBlanks e).isEmpty

/-- Two lists of columns with the same columns, ignoring order and repetition. -/
def SameColumns (xs ys : List Id) : Prop := ∀ c, c ∈ xs ↔ c ∈ ys

theorem sameItems_iff {xs ys : List Id} : sameItems xs ys = true ↔ SameColumns xs ys := by
  simp only [sameItems, Bool.and_eq_true, List.all_eq_true, List.contains_iff_mem, SameColumns]
  constructor
  · rintro ⟨h₁, h₂⟩ c
    exact ⟨h₁ c, h₂ c⟩
  · intro h
    exact ⟨fun c hc => (h c).1 hc, fun c hc => (h c).2 hc⟩

instance (xs ys : List Id) : Decidable (SameColumns xs ys) := decidable_of_iff _ sameItems_iff

/-! ## Sound entries -/

/-- An index with columns, each once. -/
structure Index.WellFormed (i : Index) : Prop where
  columns_ne_nil : i.columns ≠ []
  columnIds_nodup : (i.columns.map (·.columnId)).Nodup

/-- A constraint with columns, each once, exactly one for the kinds that hold one, and a
non-blank expression for the kinds that need one. -/
structure Constraint.WellFormed (k : Constraint) : Prop where
  columns_ne_nil : k.columns ≠ []
  single : k.kind.isSingleColumn → k.columns.length = 1
  checkExpr : k.kind = .check → k.checkExpr.any nonBlank
  defaultExpr : k.kind = .defaultValue → k.defaultExpr.any nonBlank
  columnIds_nodup : k.columnIds.Nodup

/-- A relationship that maps each provider column and each holder column once. -/
structure Relationship.MapsOnce (r : Relationship) : Prop where
  pkColumnIds_nodup : (r.columns.map (·.pkColumnId)).Nodup
  fkColumnIds_nodup : r.fkColumnIds.Nodup

/-- The indexes of a table: each well formed, no two with one definition. -/
structure IndexesSound (is : List Index) : Prop where
  wellFormed : ∀ i ∈ is, i.WellFormed
  distinct : (is.map Index.signature).Nodup

/-- No UNIQUE constraint has the column set of a primary key. -/
def KeyNotRestated (ks : List Constraint) : Prop :=
  ∀ pk ∈ ks, pk.isPrimaryKey → ∀ k ∈ ks, k.kind = .unique → ¬SameColumns k.columnIds pk.columnIds

/-- The constraints of a table: each well formed, at most one primary key, no two with one
definition, and no UNIQUE constraint restating the key. -/
structure ConstraintsSound (ks : List Constraint) : Prop where
  wellFormed : ∀ k ∈ ks, k.WellFormed
  onePrimaryKey : ks.countP (·.isPrimaryKey) ≤ 1
  distinct : (ks.map Constraint.signature).Nodup
  notRestated : KeyNotRestated ks

/-- The keys of a table are sound: its indexes, its constraints and its mappings. -/
structure Table.KeysSound (t : Table) : Prop where
  indexes : IndexesSound t.indexes
  constraints : ConstraintsSound t.constraints
  mapsOnce : ∀ r ∈ t.relationships, r.MapsOnce

/-- Every table of the snapshot has sound keys. -/
def Database.KeysSound (db : Database) : Prop := ∀ s ∈ db.schemas, ∀ t ∈ s.tables, t.KeysSound

/-- The entries of a table's keys have the shapes their kinds ask for, with at most one primary
key, but definitions may repeat: what a removal leaves before it prunes. -/
structure Table.KeysShaped (t : Table) : Prop where
  indexes : ∀ i ∈ t.indexes, i.WellFormed
  constraints : ∀ k ∈ t.constraints, k.WellFormed
  onePrimaryKey : t.constraints.countP (·.isPrimaryKey) ≤ 1
  mapsOnce : ∀ r ∈ t.relationships, r.MapsOnce

/-! The invariant is decidable, so that it can be evaluated on a snapshot. -/

instance (i : Index) : Decidable i.WellFormed :=
  decidable_of_iff (i.columns ≠ [] ∧ (i.columns.map (·.columnId)).Nodup)
    ⟨fun h => ⟨h.1, h.2⟩, fun h => ⟨h.1, h.2⟩⟩

instance (k : Constraint) : Decidable k.WellFormed :=
  decidable_of_iff (k.columns ≠ [] ∧ (k.kind.isSingleColumn → k.columns.length = 1) ∧
      (k.kind = .check → k.checkExpr.any nonBlank) ∧
      (k.kind = .defaultValue → k.defaultExpr.any nonBlank) ∧ k.columnIds.Nodup)
    ⟨fun h => ⟨h.1, h.2.1, h.2.2.1, h.2.2.2.1, h.2.2.2.2⟩,
      fun h => ⟨h.1, h.2, h.3, h.4, h.5⟩⟩

instance (r : Relationship) : Decidable r.MapsOnce :=
  decidable_of_iff ((r.columns.map (·.pkColumnId)).Nodup ∧ r.fkColumnIds.Nodup)
    ⟨fun h => ⟨h.1, h.2⟩, fun h => ⟨h.1, h.2⟩⟩

instance (is : List Index) : Decidable (IndexesSound is) :=
  decidable_of_iff ((∀ i ∈ is, i.WellFormed) ∧ (is.map Index.signature).Nodup)
    ⟨fun h => ⟨h.1, h.2⟩, fun h => ⟨h.1, h.2⟩⟩

instance (ks : List Constraint) : Decidable (KeyNotRestated ks) :=
  inferInstanceAs (Decidable (∀ pk ∈ ks, pk.isPrimaryKey → ∀ k ∈ ks, k.kind = .unique →
    ¬SameColumns k.columnIds pk.columnIds))

instance (ks : List Constraint) : Decidable (ConstraintsSound ks) :=
  decidable_of_iff ((∀ k ∈ ks, k.WellFormed) ∧ ks.countP (·.isPrimaryKey) ≤ 1 ∧
      (ks.map Constraint.signature).Nodup ∧ KeyNotRestated ks)
    ⟨fun h => ⟨h.1, h.2.1, h.2.2.1, h.2.2.2⟩, fun h => ⟨h.1, h.2, h.3, h.4⟩⟩

instance (t : Table) : Decidable t.KeysSound :=
  decidable_of_iff (IndexesSound t.indexes ∧ ConstraintsSound t.constraints ∧
      ∀ r ∈ t.relationships, r.MapsOnce)
    ⟨fun h => ⟨h.1, h.2.1, h.2.2⟩, fun h => ⟨h.1, h.2, h.3⟩⟩

instance (db : Database) : Decidable db.KeysSound :=
  inferInstanceAs (Decidable (∀ s ∈ db.schemas, ∀ t ∈ s.tables, t.KeysSound))

/-! ## Lists with distinct keys -/

section Lists

variable {α β : Type}

/-- The keys `dedupBy` keeps are distinct. -/
theorem nodup_map_dedupBy [DecidableEq β] (key : α → β) (xs : List α) :
    ((dedupBy key xs).map key).Nodup := by
  -- the fold records the keys of what it kept, reversed, and they stay distinct
  have hfold : ∀ (ys : List α) (acc : List β × List α), acc.2.map key = acc.1 → acc.1.Nodup →
      (ys.foldl (fun (acc : List β × List α) x =>
        if acc.1.contains (key x) then acc else (key x :: acc.1, x :: acc.2)) acc).2.map key =
        (ys.foldl (fun (acc : List β × List α) x =>
          if acc.1.contains (key x) then acc else (key x :: acc.1, x :: acc.2)) acc).1 ∧
      (ys.foldl (fun (acc : List β × List α) x =>
        if acc.1.contains (key x) then acc else (key x :: acc.1, x :: acc.2)) acc).1.Nodup := by
    intro ys
    induction ys with
    | nil => exact fun _ h₁ h₂ => ⟨h₁, h₂⟩
    | cons y ys ih =>
      intro acc h₁ h₂
      rw [List.foldl_cons]
      split
      · exact ih acc h₁ h₂
      · next hy =>
        refine ih _ (by simp [h₁]) (List.nodup_cons.2 ⟨?_, h₂⟩)
        simpa using hy
  obtain ⟨hkeys, hnodup⟩ := hfold xs ([], []) rfl List.nodup_nil
  unfold dedupBy
  rw [List.map_reverse, hkeys]
  exact List.nodup_reverse.2 hnodup

/-- Items whose keys are distinct within each side of `p`, and differ across the sides, have
distinct keys. -/
theorem nodup_map_of_filter {p : α → Bool} {f : α → β} :
    ∀ {l : List α}, (∀ x ∈ l, ∀ y ∈ l, p x ≠ p y → f x ≠ f y) → ((l.filter p).map f).Nodup →
      ((l.filter (!p ·)).map f).Nodup → (l.map f).Nodup
  | [], _, _, _ => List.nodup_nil
  | a :: l, hsep, hp, hn => by
    have hsep' : ∀ x ∈ l, ∀ y ∈ l, p x ≠ p y → f x ≠ f y := fun x hx y hy =>
      hsep x (List.mem_cons_of_mem a hx) y (List.mem_cons_of_mem a hy)
    rw [List.map_cons, List.nodup_cons]
    cases ha : p a
    · rw [List.filter_cons_of_neg (by simp [ha])] at hp
      rw [List.filter_cons_of_pos (by simp [ha]), List.map_cons, List.nodup_cons] at hn
      refine ⟨fun hmem => ?_, nodup_map_of_filter hsep' hp hn.2⟩
      obtain ⟨b, hb, hfb⟩ := List.mem_map.1 hmem
      by_cases hpb : p b
      · exact hsep a List.mem_cons_self b (List.mem_cons_of_mem a hb) (by simp [ha, hpb]) hfb.symm
      · exact hn.1 (List.mem_map.2 ⟨b, List.mem_filter.2 ⟨hb, by simpa using hpb⟩, hfb⟩)
    · rw [List.filter_cons_of_pos (by simp [ha]), List.map_cons, List.nodup_cons] at hp
      rw [List.filter_cons_of_neg (by simp [ha])] at hn
      refine ⟨fun hmem => ?_, nodup_map_of_filter hsep' hp.2 hn⟩
      obtain ⟨b, hb, hfb⟩ := List.mem_map.1 hmem
      by_cases hpb : p b
      · exact hp.1 (List.mem_map.2 ⟨b, List.mem_filter.2 ⟨hb, hpb⟩, hfb⟩)
      · exact hsep a List.mem_cons_self b (List.mem_cons_of_mem a hb) (by simp [ha, hpb]) hfb.symm

theorem nodup_of_length_le_one : ∀ {l : List α}, l.length ≤ 1 → l.Nodup
  | [], _ => List.nodup_nil
  | [_], _ => List.nodup_singleton _
  | _ :: _ :: _, h => absurd h (by simp)

/-- With distinct ids, at most one item has a given id. -/
theorem length_filter_id_le_one {key : α → Id} {l : List α} (hids : (l.map key).Nodup) (k : Id) :
    (l.filter (key · = k)).length ≤ 1 := by
  have hsub : ((l.filter (key · = k)).map key).Nodup := hids.sublist (List.filter_sublist.map _)
  have hrep : (l.filter (key · = k)).map key = List.replicate (l.filter (key · = k)).length k := by
    refine List.eq_replicate_iff.2 ⟨List.length_map _, fun x hx => ?_⟩
    obtain ⟨y, hy, rfl⟩ := List.mem_map.1 hx
    simpa using (List.mem_filter.1 hy).2
  rw [hrep] at hsub
  exact List.nodup_replicate.1 hsub

/-- Items with distinct ids, whose keys are distinct once those of id `k` are left out, and where
the key of the item of id `k` is no other item's, have distinct keys: what a check of one item
against the items of other ids gives. -/
theorem nodup_map_of_others {key : α → Id} {f : α → β} {k : Id} {l : List α}
    (hids : (l.map key).Nodup) (hrest : ((l.filter (key · ≠ k)).map f).Nodup)
    (hnew : ∀ x ∈ l, key x = k → ∀ y ∈ l, key y ≠ k → f y ≠ f x) : (l.map f).Nodup := by
  refine nodup_map_of_filter (p := fun x => decide (key x = k)) ?_ ?_ (by simpa using hrest)
  · intro x hx y hy hxy
    by_cases hkx : key x = k
    · have hky : key y ≠ k := fun hky => hxy (by simp [hkx, hky])
      exact (hnew x hx hkx y hy hky).symm
    · have hky : key y = k := by simpa [hkx] using hxy
      exact hnew y hy hky x hx hkx
  · -- at most one item has the id `k`
    refine nodup_of_length_le_one ?_
    rw [List.length_map]
    exact length_filter_id_le_one hids k

/-- Changing the first item that matches leaves the items that do not match, when the change
keeps an item matching. -/
theorem filter_not_updateFirst {p : α → Bool} {f : α → α} (hf : ∀ x, p x → p (f x)) :
    ∀ xs : List α, (updateFirst p f xs).filter (!p ·) = xs.filter (!p ·)
  | [] => rfl
  | x :: xs => by
    unfold updateFirst
    by_cases hx : p x
    · rw [if_pos hx, List.filter_cons_of_neg (by simp [hf x hx]),
        List.filter_cons_of_neg (by simp [hx])]
    · rw [if_neg hx, List.filter_cons, List.filter_cons, filter_not_updateFirst hf xs]

/-- Two items that `p` holds of in a list where it holds of at most one are the same. -/
theorem eq_of_countP_le_one {p : α → Bool} {l : List α} (h : l.countP p ≤ 1) {x y : α}
    (hx : x ∈ l) (hpx : p x) (hy : y ∈ l) (hpy : p y) : x = y := by
  rw [List.countP_eq_length_filter] at h
  have hx' : x ∈ l.filter p := List.mem_filter.2 ⟨hx, hpx⟩
  have hy' : y ∈ l.filter p := List.mem_filter.2 ⟨hy, hpy⟩
  match hf : l.filter p, h with
  | [], _ => simp [hf] at hx'
  | [z], _ =>
    rw [hf, List.mem_singleton] at hx' hy'
    exact hx'.trans hy'.symm
  | _ :: _ :: _, h => simp at h

end Lists

/-! ## Entries -/

/-- An index with some of its entries, renumbered. -/
theorem Index.WellFormed.renumber_filter {i : Index} (h : i.WellFormed) (q : IndexColumn → Bool)
    (hne : i.columns.filter q ≠ []) :
    ({ i with columns := renumber (fun c n => { c with seqNo := n }) (i.columns.filter q) } :
      Index).WellFormed := by
  have hids : (renumber (fun c n => { c with seqNo := n }) (i.columns.filter q)).map (·.columnId) =
      (i.columns.filter q).map (·.columnId) :=
    @map_renumber IndexColumn Id (fun c n => { c with seqNo := n }) (·.columnId) (fun _ _ => rfl) _
  refine ⟨fun h' => hne ?_, ?_⟩
  · simpa [renumber] using h'
  · rw [hids]
    exact h.columnIds_nodup.sublist (List.filter_sublist.map _)

/-- A constraint with some of its entries, renumbered, keeps its shape while it keeps one. -/
theorem Constraint.WellFormed.renumber_filter {k : Constraint} (h : k.WellFormed)
    (q : ConstraintColumn → Bool) (hne : k.columns.filter q ≠ []) :
    ({ k with columns := renumber (fun c n => { c with seqNo := n }) (k.columns.filter q) } :
      Constraint).WellFormed := by
  have hids : (renumber (fun c n => { c with seqNo := n }) (k.columns.filter q)).map (·.columnId) =
      (k.columns.filter q).map (·.columnId) :=
    @map_renumber ConstraintColumn Id (fun c n => { c with seqNo := n }) (·.columnId)
      (fun _ _ => rfl) _
  have hlen : (renumber (fun c n => { c with seqNo := n }) (k.columns.filter q)).length =
      (k.columns.filter q).length := by simp [renumber]
  have hpos : 0 < (k.columns.filter q).length := List.length_pos_iff.2 hne
  refine ⟨fun h' => hne ?_, fun hs => ?_, h.checkExpr, h.defaultExpr, ?_⟩
  · simpa [renumber] using h'
  · -- one entry before, and at least one kept
    have := h.single hs
    have := List.length_filter_le q k.columns
    dsimp only
    omega
  · simp only [Constraint.columnIds]
    rw [hids]
    exact h.columnIds_nodup.sublist (List.filter_sublist.map _)

/-- A relationship with some of its mappings, renumbered. -/
theorem Relationship.MapsOnce.renumber_filter {r : Relationship} (h : r.MapsOnce)
    (q : KeyMapping → Bool) :
    ({ r with columns := renumber (fun m n => { m with seqNo := n }) (r.columns.filter q) } :
      Relationship).MapsOnce := by
  refine ⟨?_, ?_⟩
  · dsimp only
    rw [@map_renumber KeyMapping Id (fun m n => { m with seqNo := n }) (·.pkColumnId)
      (fun _ _ => rfl)]
    exact h.pkColumnIds_nodup.sublist (List.filter_sublist.map _)
  · simp only [Relationship.fkColumnIds]
    rw [@map_renumber KeyMapping Id (fun m n => { m with seqNo := n }) (·.fkColumnId)
      (fun _ _ => rfl)]
    exact h.fkColumnIds_nodup.sublist (List.filter_sublist.map _)

/-- A mapping of a provider column and a holder column the relationship does not map yet. -/
theorem Relationship.MapsOnce.append {r : Relationship} (h : r.MapsOnce) {m : KeyMapping}
    (hpk : r.mapsPkColumn m.pkColumnId = false) (hfk : r.mapsFkColumn m.fkColumnId = false) :
    ({ r with columns := r.columns ++ [m] } : Relationship).MapsOnce := by
  simp only [Relationship.mapsPkColumn, Relationship.mapsFkColumn, List.any_eq_false,
    decide_eq_true_eq] at hpk hfk
  refine ⟨?_, ?_⟩
  · rw [List.map_append, List.map_singleton, List.nodup_append]
    refine ⟨h.pkColumnIds_nodup, List.nodup_singleton _, ?_⟩
    simp only [List.mem_map, List.mem_singleton]
    rintro _ ⟨m', hm', rfl⟩ _ rfl
    exact hpk m' hm'
  · simp only [Relationship.fkColumnIds, List.map_append, List.map_singleton, List.nodup_append]
    refine ⟨h.fkColumnIds_nodup, List.nodup_singleton _, ?_⟩
    simp only [List.mem_map, List.mem_singleton]
    rintro _ ⟨m', hm', rfl⟩ _ rfl
    exact hfk m' hm'

theorem Relationship.mapsOnce_of_columns_eq_nil {r : Relationship} (h : r.columns = []) :
    r.MapsOnce :=
  ⟨by simp [h], by simp [Relationship.fkColumnIds, h]⟩

/-! ## Keeping some entries -/

theorem IndexesSound.sublist {is is' : List Index} (h : IndexesSound is) (hs : is'.Sublist is) :
    IndexesSound is' :=
  ⟨fun i hi => h.wellFormed i (hs.subset hi), h.distinct.sublist (hs.map _)⟩

theorem KeyNotRestated.sublist {ks ks' : List Constraint} (h : KeyNotRestated ks)
    (hs : ks'.Sublist ks) : KeyNotRestated ks' :=
  fun pk hpk hp k hk hu => h pk (hs.subset hpk) hp k (hs.subset hk) hu

theorem ConstraintsSound.sublist {ks ks' : List Constraint} (h : ConstraintsSound ks)
    (hs : ks'.Sublist ks) : ConstraintsSound ks' :=
  ⟨fun k hk => h.wellFormed k (hs.subset hk), hs.countP_le.trans h.onePrimaryKey,
    h.distinct.sublist (hs.map _), h.notRestated.sublist hs⟩

theorem Table.KeysSound.shaped {t : Table} (h : t.KeysSound) : t.KeysShaped :=
  ⟨h.indexes.wellFormed, h.constraints.wellFormed, h.constraints.onePrimaryKey, h.mapsOnce⟩

/-! ## Pruning -/

namespace Table

theorem mem_of_uniqueRestatingKey? {t : Table} {k : Constraint} (h : t.uniqueRestatingKey? = some k) :
    k ∈ t.constraints := by
  unfold uniqueRestatingKey? at h
  split at h
  · cases h
  · exact List.mem_of_find?_eq_some h

/-- With at most one primary key, a table where `uniqueRestatingKey?` finds nothing has no UNIQUE
constraint restating its key. -/
theorem keyNotRestated_of_uniqueRestatingKey? {t : Table}
    (hone : t.constraints.countP (·.isPrimaryKey) ≤ 1) (h : t.uniqueRestatingKey? = none) :
    KeyNotRestated t.constraints := by
  intro pk hpk hp k hk hu hsame
  -- the key that `uniqueRestatingKey?` compares with is the only primary key, `pk`
  obtain ⟨pk₀, hpk₀⟩ : ∃ pk₀, t.primaryKey? = some pk₀ := by
    refine Option.isSome_iff_exists.1 (List.find?_isSome.2 ⟨pk, hpk, ?_⟩)
    simpa [Constraint.isPrimaryKey] using hp
  have hmem₀ := List.mem_of_find?_eq_some hpk₀
  have hp₀ : pk₀.isPrimaryKey := by simpa [Constraint.isPrimaryKey] using List.find?_some hpk₀
  obtain rfl := eq_of_countP_le_one hone hpk hp hmem₀ hp₀
  unfold uniqueRestatingKey? at h
  rw [hpk₀] at h
  dsimp only at h
  rw [List.find?_eq_none] at h
  exact h k hk (by simp [hu, sameItems_iff.2 hsame])

/-- Dropping restating UNIQUE constraints with more rounds than constraints leaves none. -/
theorem uniqueRestatingKey?_dropRestatingKeys :
    ∀ (fuel : Nat) (t : Table), t.constraints.length < fuel →
      (dropRestatingKeys fuel t).uniqueRestatingKey? = none
  | 0, _, h => absurd h (Nat.not_lt_zero _)
  | fuel + 1, t, h => by
    unfold dropRestatingKeys
    split
    · assumption
    · next k hk =>
      refine uniqueRestatingKey?_dropRestatingKeys fuel _ ?_
      have hlt : (t.constraints.filter (·.id ≠ k.id)).length < t.constraints.length :=
        List.length_filter_lt_length_iff_exists.2 ⟨k, mem_of_uniqueRestatingKey? hk, by simp⟩
      dsimp only
      omega

theorem pruneRedundantKeys_constraints (t : Table) :
    t.pruneRedundantKeys.constraints = dedupBy Constraint.signature
      (dropRestatingKeys (t.constraints.length + 1)
        { t with indexes := dedupBy Index.signature t.indexes }).constraints := rfl

/-- Pruning a table whose entries have their shapes gives sound keys. -/
theorem KeysShaped.pruneRedundantKeys {t : Table} (h : t.KeysShaped) :
    t.pruneRedundantKeys.KeysSound := by
  have hsub := dropRestatingKeys_constraints_sublist (t.constraints.length + 1)
    { t with indexes := dedupBy Index.signature t.indexes }
  have hone := hsub.countP_le.trans h.onePrimaryKey
  have hnone := uniqueRestatingKey?_dropRestatingKeys (t.constraints.length + 1)
    { t with indexes := dedupBy Index.signature t.indexes } (Nat.lt_succ_self _)
  have hdedup := dedupBy_sublist Constraint.signature
    (dropRestatingKeys (t.constraints.length + 1)
      { t with indexes := dedupBy Index.signature t.indexes }).constraints
  refine ⟨?_, ?_, ?_⟩
  · rw [pruneRedundantKeys_indexes]
    exact ⟨fun i hi => h.indexes i ((dedupBy_sublist _ _).subset hi),
      nodup_map_dedupBy _ _⟩
  · rw [pruneRedundantKeys_constraints]
    exact ⟨fun k hk => h.constraints k (hsub.subset (hdedup.subset hk)),
      hdedup.countP_le.trans hone, nodup_map_dedupBy _ _,
      (keyNotRestated_of_uniqueRestatingKey? hone hnone).sublist hdedup⟩
  · rw [pruneRedundantKeys_relationships]
    exact h.mapsOnce

end Table

/-! ## Checked entries -/

namespace Table

/-- A passing `ensureDistinctDefinition`: no index of another id has the definition of the index
checked. -/
theorem ensureDistinctDefinition_ok {t : Table} {iid : Id} (h : t.ensureDistinctDefinition iid = .ok ())
    {i : Index} (hi : t.index? iid = some i) :
    ∀ o ∈ t.indexes, o.id ≠ iid → o.signature ≠ i.signature := by
  unfold ensureDistinctDefinition at h
  rw [hi] at h
  dsimp only at h
  split at h
  · cases h
  · next hnone =>
    rw [List.find?_eq_none] at hnone
    intro o ho hid hsig
    exact hnone o ho (by simp [hid, hsig])

theorem uniqueRestatingKey?_of_ensureKeyNotRestated {t : Table}
    (h : t.ensureKeyNotRestated = .ok ()) : t.uniqueRestatingKey? = none := by
  unfold ensureKeyNotRestated at h
  split at h
  · cases h
  · assumption

/-- A passing `ensureDistinctKey`: no constraint of another id has the definition of the
constraint checked, and no UNIQUE constraint restates the key. -/
theorem ensureDistinctKey_ok {t : Table} {cid : Id} (h : t.ensureDistinctKey cid = .ok ())
    {k : Constraint} (hk : t.constraint? cid = some k) :
    (∀ o ∈ t.constraints, o.id ≠ cid → o.signature ≠ k.signature) ∧
      t.uniqueRestatingKey? = none := by
  unfold ensureDistinctKey at h
  rw [hk] at h
  dsimp only at h
  split at h
  · cases h
  · next hnone =>
    rw [List.find?_eq_none] at hnone
    exact ⟨fun o ho hid hsig => hnone o ho (by simp [hid, hsig]),
      uniqueRestatingKey?_of_ensureKeyNotRestated h⟩

end Table

/-- Indexes with distinct ids, whose definitions are distinct apart from the index `iid`, after a
passing check of that index. -/
theorem IndexesSound.of_check {t : Table} {iid : Id} (hids : (t.indexes.map (·.id)).Nodup)
    (hwf : ∀ i ∈ t.indexes, i.WellFormed)
    (hrest : ((t.indexes.filter (·.id ≠ iid)).map Index.signature).Nodup)
    (h : t.ensureDistinctDefinition iid = .ok ()) : IndexesSound t.indexes := by
  refine ⟨hwf, nodup_map_of_others hids hrest fun i hi hid o ho hoid => ?_⟩
  have hfind : t.index? iid = some i := by
    rw [← hid]
    exact find?_key_eq_of_mem hids hi
  exact Table.ensureDistinctDefinition_ok h hfind o ho hoid

/-- Constraints with distinct ids and at most one primary key, whose definitions are distinct
apart from the constraint `cid`, after a passing check of that constraint. -/
theorem ConstraintsSound.of_check {t : Table} {cid : Id} (hids : (t.constraints.map (·.id)).Nodup)
    (hwf : ∀ k ∈ t.constraints, k.WellFormed) (hone : t.constraints.countP (·.isPrimaryKey) ≤ 1)
    (hrest : ((t.constraints.filter (·.id ≠ cid)).map Constraint.signature).Nodup)
    (hmem : ∃ k ∈ t.constraints, k.id = cid) (h : t.ensureDistinctKey cid = .ok ()) :
    ConstraintsSound t.constraints := by
  have hfind : ∀ k ∈ t.constraints, k.id = cid → t.constraint? cid = some k := by
    intro k hk hid
    rw [← hid]
    exact find?_key_eq_of_mem hids hk
  obtain ⟨k, hk, hkid⟩ := hmem
  refine ⟨hwf, hone, nodup_map_of_others hids hrest fun x hx hxid o ho hoid => ?_, ?_⟩
  · exact (Table.ensureDistinctKey_ok h (hfind x hx hxid)).1 o ho hoid
  · exact Table.keyNotRestated_of_uniqueRestatingKey? hone
      (Table.ensureDistinctKey_ok h (hfind k hk hkid)).2

theorem filter_append_new {α : Type} {key : α → Id} {l : List α} {x : α}
    (hnew : ∀ y ∈ l, key y ≠ key x) : (l ++ [x]).filter (key · ≠ key x) = l := by
  rw [List.filter_append, List.filter_eq_self.2 (fun y hy => by simpa using hnew y hy)]
  simp

theorem filter_updateFirst_key {α : Type} {key : α → Id} {k : Id} {f : α → α}
    (hf : ∀ x, key (f x) = key x) (l : List α) :
    (updateFirst (key · = k) f l).filter (key · ≠ k) = l.filter (key · ≠ k) := by
  have h := filter_not_updateFirst (p := fun x => decide (key x = k)) (f := f)
    (fun x hx => by simpa [hf x] using hx) l
  simpa only [decide_not] using h

/-- A constraint appended that is neither a primary key nor UNIQUE restates no key. -/
theorem KeyNotRestated.append {ks : List Constraint} (h : KeyNotRestated ks) {k : Constraint}
    (hpk : k.isPrimaryKey = false) (hu : k.kind ≠ .unique) : KeyNotRestated (ks ++ [k]) := by
  intro pk hpkm hp u hum hukind
  rcases List.mem_append.1 hpkm with hpkm | hpkm
  · rcases List.mem_append.1 hum with hum | hum
    · exact h pk hpkm hp u hum hukind
    · rw [List.mem_singleton.1 hum] at hukind
      exact absurd hukind hu
  · rw [List.mem_singleton.1 hpkm, hpk] at hp
    exact absurd hp Bool.false_ne_true

/-- Appending a well-formed constraint that is not a primary key, restates no key, and has a
definition no constraint has. -/
theorem ConstraintsSound.append {ks : List Constraint} (h : ConstraintsSound ks) {k : Constraint}
    (hk : k.WellFormed) (hpk : k.isPrimaryKey = false) (hu : k.kind ≠ .unique)
    (hsig : k.signature ∉ ks.map Constraint.signature) : ConstraintsSound (ks ++ [k]) := by
  refine ⟨fun k' hk' => ?_, ?_, ?_, h.notRestated.append hpk hu⟩
  · rcases List.mem_append.1 hk' with hk' | hk'
    · exact h.wellFormed k' hk'
    · exact List.mem_singleton.1 hk' ▸ hk
  · rw [List.countP_append]
    simpa [hpk] using h.onePrimaryKey
  · rw [List.map_append, List.map_singleton, List.nodup_append]
    refine ⟨h.distinct, List.nodup_singleton _, ?_⟩
    intro a ha b hb hab
    rw [List.mem_singleton.1 hb] at hab
    exact hsig (hab ▸ ha)

/-! ## Changes that keep every definition

An entry's shape can be read off its definition: an index's columns in order off its signature,
a constraint's kind, expressions and columns off its. So a change that keeps the definitions of
the indexes and constraints, in order, and the mappings of the relationships keeps sound keys:
renaming, retyping and moving columns, renaming entries, changing a relationship's kind or
actions. -/

theorem Index.WellFormed.of_signature {i i' : Index} (h : i.WellFormed)
    (he : i'.signature = i.signature) : i'.WellFormed := by
  have hcols : i'.columns.map (·.columnId) = i.columns.map (·.columnId) := by
    have := congrArg (fun s => s.2.map Prod.fst) he
    simpa [Index.signature, List.map_map, Function.comp_def] using this
  refine ⟨fun hnil => h.columns_ne_nil ?_, hcols ▸ h.columnIds_nodup⟩
  have : i.columns.map (·.columnId) = [] := by rw [← hcols, hnil, List.map_nil]
  exact List.map_eq_nil_iff.1 this

theorem Constraint.WellFormed.of_signature {k k' : Constraint} (h : k.WellFormed)
    (he : k'.signature = k.signature) : k'.WellFormed := by
  simp only [Constraint.signature, Prod.mk.injEq] at he
  obtain ⟨hkind, hcheck, hdefault, hids⟩ := he
  have hlen : k'.columns.length = k.columns.length := by
    simpa [Constraint.columnIds] using congrArg List.length hids
  refine ⟨fun hnil => h.columns_ne_nil (List.eq_nil_of_length_eq_zero ?_), fun hs => ?_,
    fun hc => ?_, fun hd => ?_, hids ▸ h.columnIds_nodup⟩
  · rw [← hlen, hnil, List.length_nil]
  · rw [hlen]
    exact h.single (hkind ▸ hs)
  · rw [hcheck]
    exact h.checkExpr (hkind ▸ hc)
  · rw [hdefault]
    exact h.defaultExpr (hkind ▸ hd)

theorem IndexesSound.of_signatures {is is' : List Index} (h : IndexesSound is)
    (he : is'.map Index.signature = is.map Index.signature) : IndexesSound is' := by
  refine ⟨fun i' hi' => ?_, by rw [he]; exact h.distinct⟩
  have hmem : i'.signature ∈ is.map Index.signature := he ▸ List.mem_map_of_mem hi'
  obtain ⟨i, hi, hsig⟩ := List.mem_map.1 hmem
  exact (h.wellFormed i hi).of_signature hsig.symm

theorem ConstraintsSound.of_signatures {ks ks' : List Constraint} (h : ConstraintsSound ks)
    (he : ks'.map Constraint.signature = ks.map Constraint.signature) : ConstraintsSound ks' := by
  have hsig : ∀ k' ∈ ks', ∃ k ∈ ks, k.signature = k'.signature := fun k' hk' =>
    List.mem_map.1 (he ▸ List.mem_map_of_mem hk')
  have hcount : ∀ l : List Constraint, l.countP (·.isPrimaryKey) =
      (l.map Constraint.signature).countP (fun s => decide (s.1 = .primaryKey)) := fun l => by
    rw [List.countP_map]
    rfl
  refine ⟨fun k' hk' => ?_, ?_, by rw [he]; exact h.distinct, ?_⟩
  · obtain ⟨k, hk, hs⟩ := hsig k' hk'
    exact (h.wellFormed k hk).of_signature hs.symm
  · rw [hcount, he, ← hcount]
    exact h.onePrimaryKey
  · intro pk' hpk' hp u' hu' hkind
    obtain ⟨pk, hpk, hspk⟩ := hsig pk' hpk'
    obtain ⟨u, hu, hsu⟩ := hsig u' hu'
    simp only [Constraint.signature, Prod.mk.injEq] at hspk hsu
    rw [← hsu.2.2.2, ← hspk.2.2.2]
    refine h.notRestated pk hpk ?_ u hu (hsu.1.trans hkind)
    simpa [Constraint.isPrimaryKey, hspk.1] using hp

theorem Relationship.MapsOnce.of_columns {r r' : Relationship} (h : r.MapsOnce)
    (he : r'.columns = r.columns) : r'.MapsOnce :=
  ⟨he ▸ h.pkColumnIds_nodup, by simpa only [Relationship.fkColumnIds, he] using h.fkColumnIds_nodup⟩

theorem Table.KeysSound.of_signatures {t t' : Table} (h : t.KeysSound)
    (hi : t'.indexes.map Index.signature = t.indexes.map Index.signature)
    (hk : t'.constraints.map Constraint.signature = t.constraints.map Constraint.signature)
    (hr : t'.relationships.map (·.columns) = t.relationships.map (·.columns)) : t'.KeysSound := by
  refine ⟨h.indexes.of_signatures hi, h.constraints.of_signatures hk, fun r' hr' => ?_⟩
  obtain ⟨r, hr₀, hcols⟩ := List.mem_map.1 (hr ▸ List.mem_map_of_mem hr')
  exact (h.mapsOnce r hr₀).of_columns hcols.symm

theorem Table.KeysSound.of_keys_eq {t t' : Table} (h : t.KeysSound) (hi : t'.indexes = t.indexes)
    (hk : t'.constraints = t.constraints) (hr : t'.relationships = t.relationships) :
    t'.KeysSound :=
  h.of_signatures (by rw [hi]) (by rw [hk]) (by rw [hr])

theorem Table.KeysSound.withRelationships {t : Table} (h : t.KeysSound) {rs : List Relationship}
    (hrs : ∀ r ∈ rs, r.MapsOnce) : ({ t with relationships := rs } : Table).KeysSound :=
  ⟨h.indexes, h.constraints, hrs⟩

theorem Table.KeysSound.filterIndexes {t : Table} (h : t.KeysSound) (p : Index → Bool) :
    ({ t with indexes := t.indexes.filter p } : Table).KeysSound :=
  ⟨h.indexes.sublist List.filter_sublist, h.constraints, h.mapsOnce⟩

theorem Table.KeysSound.filterConstraints {t : Table} (h : t.KeysSound) (p : Constraint → Bool) :
    ({ t with constraints := t.constraints.filter p } : Table).KeysSound :=
  ⟨h.indexes, h.constraints.sublist List.filter_sublist, h.mapsOnce⟩

/-! ## Removals

A removal takes entries off a column, or mappings off a relationship, and drops what it left
empty; what remains has its shape, and the pruning restores distinct definitions
(`KeysShaped.pruneRedundantKeys`). -/

theorem Index.WellFormed.withoutColumn {i : Index} (h : i.WellFormed) (c : Id)
    (hne : (i.withoutColumn c).columns.isEmpty = false) : (i.withoutColumn c).WellFormed :=
  h.renumber_filter _ fun hnil => by
    have : (i.withoutColumn c).columns = [] := by
      simp only [Index.withoutColumn, hnil]
      rfl
    simp [this] at hne

theorem Constraint.WellFormed.withoutColumns {k : Constraint} (h : k.WellFormed) (cs : List Id)
    (hne : (k.withoutColumns cs).columns.isEmpty = false) : (k.withoutColumns cs).WellFormed :=
  h.renumber_filter _ fun hnil => by
    have : (k.withoutColumns cs).columns = [] := by
      simp only [Constraint.withoutColumns, hnil]
      rfl
    simp [this] at hne

theorem Relationship.MapsOnce.withoutFkColumn {r : Relationship} (h : r.MapsOnce) (c : Id) :
    (r.withoutFkColumn c).MapsOnce :=
  h.renumber_filter _

/-- A table whose entries are taken off a column, those left empty dropped, keeps the shapes of
its entries: what `detachColumn` prunes. -/
theorem Table.KeysShaped.detached {t : Table} (h : t.KeysShaped) (c : Id) (cols : List Column) :
    ({ t with
        columns := cols
        indexes := (t.indexes.map (·.withoutColumn c)).filter (!·.columns.isEmpty)
        constraints := (t.constraints.map (·.withoutColumn c)).filter (!·.columns.isEmpty)
        relationships :=
          (t.relationships.map (·.withoutFkColumn c)).filter (!·.columns.isEmpty) } :
      Table).KeysShaped where
  indexes i hi := by
    obtain ⟨hi, hne⟩ := List.mem_filter.1 hi
    obtain ⟨i₀, hi₀, rfl⟩ := List.mem_map.1 hi
    exact (h.indexes i₀ hi₀).withoutColumn c (by simpa using hne)
  constraints k hk := by
    obtain ⟨hk, hne⟩ := List.mem_filter.1 hk
    obtain ⟨k₀, hk₀, rfl⟩ := List.mem_map.1 hk
    exact (h.constraints k₀ hk₀).withoutColumns [c] (by simpa [Constraint.withoutColumn] using hne)
  onePrimaryKey := calc
    _ ≤ (t.constraints.map (·.withoutColumn c)).countP (·.isPrimaryKey) :=
      List.filter_sublist.countP_le
    _ = t.constraints.countP (·.isPrimaryKey) := by
      rw [List.countP_map]
      rfl
    _ ≤ 1 := h.onePrimaryKey
  mapsOnce r hr := by
    obtain ⟨r₀, hr₀, rfl⟩ := List.mem_map.1 (List.mem_filter.1 hr).1
    exact (h.mapsOnce r₀ hr₀).withoutFkColumn c

theorem Table.KeysSound.detachColumn {t : Table} (h : t.KeysSound) (c : Id) :
    (t.detachColumn c).1.KeysSound := by
  unfold Table.detachColumn
  split
  · exact (h.shaped.detached c _).pruneRedundantKeys
  · exact h

theorem Table.KeysSound.foldl_detachColumn :
    ∀ (cs : List Id) {t : Table}, t.KeysSound → (cs.foldl (fun t c => (t.detachColumn c).1) t).KeysSound
  | [], _, h => h
  | c :: cs, _, h => foldl_detachColumn cs (h.detachColumn c)

/-- Columns taken out of the primary key, emptied keys dropped, redundant keys pruned. -/
theorem Table.KeysSound.removeKeyColumns {t : Table} (h : t.KeysSound) (cs : List Id) :
    ({ t with constraints := ((t.constraints.map fun k =>
      if k.kind = .primaryKey then k.withoutColumns cs else k).filter
        fun k => !(k.kind = .primaryKey && k.columns.isEmpty)) } : Table).pruneRedundantKeys.KeysSound := by
  have hkind : ∀ k : Constraint,
      (if k.kind = .primaryKey then k.withoutColumns cs else k).isPrimaryKey = k.isPrimaryKey := by
    intro k
    split <;> rfl
  refine Table.KeysShaped.pruneRedundantKeys ⟨h.indexes.wellFormed, fun k hk => ?_, ?_, h.mapsOnce⟩
  · obtain ⟨hk, hne⟩ := List.mem_filter.1 hk
    obtain ⟨k₀, hk₀, rfl⟩ := List.mem_map.1 hk
    split
    · next hpk =>
      have hk' : (k₀.withoutColumns cs).kind = .primaryKey := hpk
      rw [if_pos hpk] at hne
      exact (h.constraints.wellFormed k₀ hk₀).withoutColumns cs (by simpa [hk'] using hne)
    · exact h.constraints.wellFormed k₀ hk₀
  · calc
      _ ≤ (t.constraints.map fun k =>
          if k.kind = .primaryKey then k.withoutColumns cs else k).countP (·.isPrimaryKey) :=
        List.filter_sublist.countP_le
      _ = t.constraints.countP (·.isPrimaryKey) := by
        rw [List.countP_map]
        exact List.countP_congr fun k _ => by simp only [Function.comp_apply, hkind]
      _ ≤ 1 := h.constraints.onePrimaryKey

theorem Table.KeysSound.stripRelationship {t : Table} (h : t.KeysSound) (p q : Relationship → Bool)
    {f : Relationship → Relationship} (hf : ∀ r, r.MapsOnce → (f r).MapsOnce) :
    ({ t with relationships := (updateFirst p f t.relationships).filter q } : Table).KeysSound :=
  h.withRelationships fun r hr => forall_mem_updateFirst h.mapsOnce
    (fun x hx => hf x (h.mapsOnce x (List.mem_of_find?_eq_some hx))) r (List.mem_filter.1 hr).1

theorem Table.KeysSound.mapRelationships {t : Table} (h : t.KeysSound) (q : Relationship → Bool)
    {f : Relationship → Relationship} (hf : ∀ r, r.MapsOnce → (f r).MapsOnce) :
    ({ t with relationships := (t.relationships.map f).filter q } : Table).KeysSound :=
  h.withRelationships fun r hr => by
    obtain ⟨r₀, hr₀, rfl⟩ := List.mem_map.1 (List.mem_filter.1 hr).1
    exact hf r₀ (h.mapsOnce r₀ hr₀)

theorem Table.KeysSound.eraseRelationship {t : Table} (h : t.KeysSound) (p : Relationship → Bool) :
    ({ t with relationships := t.relationships.eraseP p } : Table).KeysSound :=
  h.withRelationships fun r hr => h.mapsOnce r (List.eraseP_subset hr)

/-! ## Additions -/

theorem Table.KeysSound.appendRelationship {t : Table} (h : t.KeysSound) {r : Relationship}
    (hr : r.MapsOnce) : ({ t with relationships := t.relationships ++ [r] } : Table).KeysSound :=
  h.withRelationships (forall_mem_append_singleton h.mapsOnce hr)

/-- A mapping appended to the first relationship `rid`, of a provider column and a holder column
that relationship does not map yet. -/
theorem Table.KeysSound.attach {t : Table} (h : t.KeysSound) {rid : Id}
    {m : Relationship → KeyMapping}
    (hm : ∀ r, t.relationship? rid = some r →
      r.mapsPkColumn (m r).pkColumnId = false ∧ r.mapsFkColumn (m r).fkColumnId = false) :
    ({ t with
        relationships := updateFirst (·.id = rid)
          (fun r => { r with columns := r.columns ++ [m r] }) t.relationships } :
      Table).KeysSound :=
  h.withRelationships (forall_mem_updateFirst h.mapsOnce fun r hr =>
    (h.mapsOnce r (List.mem_of_find?_eq_some hr)).append (hm r hr).1 (hm r hr).2)

theorem IndexesSound.of_change {t t' : Table} (h : IndexesSound t.indexes) {iid : Id}
    (hids : (t'.indexes.map (·.id)).Nodup) (hwf : ∀ i ∈ t'.indexes, i.WellFormed)
    (hrest : (t'.indexes.filter (·.id ≠ iid)).Sublist t.indexes)
    (hchk : t'.ensureDistinctDefinition iid = .ok ()) : IndexesSound t'.indexes :=
  IndexesSound.of_check hids hwf (h.distinct.sublist (hrest.map _)) hchk

theorem ConstraintsSound.of_change {t t' : Table} (h : ConstraintsSound t.constraints) {cid : Id}
    (hids : (t'.constraints.map (·.id)).Nodup) (hwf : ∀ k ∈ t'.constraints, k.WellFormed)
    (hone : t'.constraints.countP (·.isPrimaryKey) ≤ 1)
    (hrest : (t'.constraints.filter (·.id ≠ cid)).Sublist t.constraints)
    (hmem : ∃ k ∈ t'.constraints, k.id = cid) (hchk : t'.ensureDistinctKey cid = .ok ()) :
    ConstraintsSound t'.constraints :=
  ConstraintsSound.of_check hids hwf hone (h.distinct.sublist (hrest.map _)) hmem hchk

/-! ## Growing the key -/

/-- With at most one item that `p` holds of, changing the first such item changes every one. -/
theorem updateFirst_eq_map {α : Type} {p : α → Bool} {f : α → α} :
    ∀ {xs : List α}, xs.countP p ≤ 1 → updateFirst p f xs = xs.map fun x => if p x then f x else x
  | [], _ => rfl
  | x :: xs, h => by
    unfold updateFirst
    by_cases hx : p x
    · -- no later item matches
      rw [List.countP_cons_of_pos hx] at h
      have hnone : ∀ y ∈ xs, p y = false := by
        intro y hy
        by_contra hy'
        have := List.countP_pos_iff.2 ⟨y, hy, by simpa using hy'⟩
        omega
      rw [if_pos hx, List.map_cons, if_pos hx, List.map_congr_left fun y hy => by
        rw [if_neg (by simp [hnone y hy])], List.map_id']
    · rw [List.countP_cons_of_neg hx] at h
      rw [if_neg hx, List.map_cons, if_neg hx, updateFirst_eq_map h]

/-- Constraints with the key, if any, replaced by a well-formed key `pk`: sound when the other
constraints were and no UNIQUE constraint restates `pk`. -/
theorem ConstraintsSound.replaceKey {ks : List Constraint}
    (h : ConstraintsSound (ks.filter (!·.isPrimaryKey))) (hone : ks.countP (·.isPrimaryKey) ≤ 1)
    {pk : Constraint} (hpk : pk.WellFormed) (hkind : pk.isPrimaryKey)
    (hnr : KeyNotRestated (updateFirst (·.isPrimaryKey) (fun _ => pk) ks)) :
    ConstraintsSound (updateFirst (·.isPrimaryKey) (fun _ => pk) ks) := by
  rw [updateFirst_eq_map hone] at hnr ⊢
  have hkeep : ∀ k : Constraint, (if k.isPrimaryKey then pk else k).isPrimaryKey = k.isPrimaryKey := by
    intro k
    split <;> simp_all
  have hrest : (ks.map fun k => if k.isPrimaryKey then pk else k).filter (!·.isPrimaryKey) =
      ks.filter (!·.isPrimaryKey) := by
    have hp : ((fun x => !x.isPrimaryKey) ∘ fun k => if k.isPrimaryKey then pk else k) =
        fun x => !x.isPrimaryKey := by
      funext k
      simp only [Function.comp_apply, hkeep]
    rw [List.filter_map, hp]
    refine (List.map_congr_left fun k hk => ?_).trans (List.map_id' _)
    simp only [List.mem_filter, Bool.not_eq_true'] at hk
    simp [hk.2]
  have hone' : (ks.map fun k => if k.isPrimaryKey then pk else k).countP (·.isPrimaryKey) ≤ 1 := by
    rw [List.countP_map]
    exact (List.countP_congr fun k _ => by simp only [Function.comp_apply, hkeep]).trans_le hone
  refine ⟨fun k hk => ?_, hone', ?_, hnr⟩
  · obtain ⟨k₀, hk₀, rfl⟩ := List.mem_map.1 hk
    split
    · exact hpk
    · next hp => exact h.wellFormed k₀ (List.mem_filter.2 ⟨hk₀, by simpa using hp⟩)
  · refine nodup_map_of_filter (p := (·.isPrimaryKey)) ?_ ?_ (by rw [hrest]; exact h.distinct)
    · -- a key and another constraint differ in kind
      intro x _ y _ hxy hsig
      apply hxy
      simp only [Constraint.signature, Prod.mk.injEq] at hsig
      simp only [Constraint.isPrimaryKey, hsig.1]
    · -- at most one key
      refine nodup_of_length_le_one ?_
      rw [List.length_map, ← List.countP_eq_length_filter]
      exact hone'

end SchemaDesign
