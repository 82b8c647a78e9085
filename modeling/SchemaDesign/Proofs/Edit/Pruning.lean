import SchemaDesign.Proofs.Edit.Growth

/-!
# Pruning redundant keys

`Table.pruneRedundantKeys` drops later repeats of an index definition, then the UNIQUE
constraints that restate the primary key, one round at a time, each round dropping every
constraint with the id of the first such UNIQUE, and last later repeats of a constraint
definition. For every table the result

- has the table's columns and relationships, and its indexes and constraints in their order, only
  some dropped;
- has no two indexes and no two constraints with one definition, and no UNIQUE constraint
  restating its key (`Table.pruneRedundantKeys_keyNotRestated`);
- keeps, for each index definition, the first index with it (`Table.find?_pruneRedundantKeys_indexes`);
- is pruned already: pruning it again changes nothing (`Table.pruneRedundantKeys_idem`);
- comes out of a loop that stops by its own test before its bound on rounds
  (`Table.DropsRestating`, `Table.dropsRestating_dropRestatingKeys`).

A round drops constraints by id, so it drops more than the restating UNIQUE when another
constraint has its id: the key itself goes when it shares its id with a UNIQUE restating it
(`Table.pruneRedundantKeys_drops_key_sharing_id`). When no constraint shares an id with a
restating UNIQUE unless it restates the key too (`Table.RestatingIdsApart`), the rounds drop
exactly the restating UNIQUE constraints, and for each other constraint definition the first
constraint with it is kept (`Table.find?_pruneRedundantKeys_constraints`).

Main statement `Table.pruneRedundantKeys_minimal`.
-/

namespace SchemaDesign

/-! ## The first item of each key -/

section Dedup

variable {α β : Type} [DecidableEq β] {key : α → β}

/-- Searching the items `dedupBy` keeps for a property of their keys finds what searching all the
items finds: the first item of each key is the one kept. -/
theorem find?_dedupBy {p : α → Bool} (hp : ∀ x y, key x = key y → p x = p y) (xs : List α) :
    (dedupBy key xs).find? p = xs.find? p := by
  -- the fold keeps, reversed, the items whose keys it records, and they find what the items read
  -- so far find
  have hfold : ∀ (ys seen : List α) (acc : List β × List α), acc.1 = acc.2.map key →
      acc.2.reverse.find? p = seen.find? p →
      (ys.foldl (fun (acc : List β × List α) x =>
        if acc.1.contains (key x) then acc else (key x :: acc.1, x :: acc.2)) acc).2.reverse.find? p =
        (seen ++ ys).find? p := by
    intro ys
    induction ys with
    | nil =>
      intro seen acc _ hfind
      rw [List.append_nil]
      exact hfind
    | cons y ys ih =>
      intro seen acc hkeys hfind
      rw [List.foldl_cons, show seen ++ y :: ys = (seen ++ [y]) ++ ys by simp]
      split
      · next hy =>
        refine ih (seen ++ [y]) acc hkeys ?_
        rw [List.find?_append, ← hfind]
        cases hkept : acc.2.reverse.find? p with
        | some z => rfl
        | none =>
          rw [hkeys] at hy
          obtain ⟨a, ha, hay⟩ := List.mem_map.1 (List.contains_iff_mem.1 hy)
          have hpa : p a = false := by
            simpa using List.find?_eq_none.1 hkept a (List.mem_reverse.2 ha)
          simp [← hp a y hay, hpa]
      · refine ih (seen ++ [y]) _ (by simp [hkeys]) ?_
        rw [List.reverse_cons, List.find?_append, List.find?_append, hfind]
  unfold dedupBy
  simpa using hfold xs [] ([], []) rfl rfl

theorem find?_filter_of_imp {p q : α → Bool} {l : List α} (h : ∀ x ∈ l, p x = true → q x = true) :
    (l.filter q).find? p = l.find? p := by
  rw [List.find?_filter]
  refine List.find?_congr fun x hx => ?_
  by_cases hpx : p x = true
  · simp [hpx, h x hx hpx]
  · simp [hpx]

end Dedup

namespace Table

/-! ## UNIQUE constraints restating the key -/

/-- Whether a constraint is a UNIQUE constraint with the column set of the table's key. -/
def restatesKey (t : Table) (k : Constraint) : Bool :=
  match t.primaryKey? with
  | none => false
  | some pk => k.kind = .unique && sameItems k.columnIds pk.columnIds

theorem uniqueRestatingKey?_eq_find? (t : Table) :
    t.uniqueRestatingKey? = t.constraints.find? t.restatesKey := by
  unfold uniqueRestatingKey? restatesKey
  cases t.primaryKey? with
  | none => exact (List.find?_eq_none.2 fun _ _ => Bool.false_ne_true).symm
  | some pk => simp

theorem restatesKey_congr (t : Table) {k k' : Constraint} (h : k.signature = k'.signature) :
    t.restatesKey k = t.restatesKey k' := by
  simp only [Constraint.signature, Prod.mk.injEq] at h
  unfold restatesKey
  rw [h.1, h.2.2.2]

/-- No constraint shares its id with a UNIQUE constraint restating the key unless it restates the
key too. -/
def RestatingIdsApart (t : Table) : Prop :=
  ∀ u ∈ t.constraints, t.restatesKey u = true →
    ∀ k ∈ t.constraints, k.id = u.id → t.restatesKey k = true

instance (t : Table) : Decidable t.RestatingIdsApart :=
  inferInstanceAs (Decidable (∀ u ∈ t.constraints, t.restatesKey u = true →
    ∀ k ∈ t.constraints, k.id = u.id → t.restatesKey k = true))

/-! ## The rounds that drop restating UNIQUE constraints -/

/-- The rounds of the loop that drops UNIQUE constraints restating the key, until its own test
finds none: each round drops every constraint with the id of the first one. -/
inductive DropsRestating : Table → Table → Prop
  | done {t : Table} : t.uniqueRestatingKey? = none → DropsRestating t t
  | round {t t' : Table} {u : Constraint} : t.uniqueRestatingKey? = some u →
      DropsRestating { t with constraints := t.constraints.filter (·.id ≠ u.id) } t' →
      DropsRestating t t'

/-- The loop has one outcome. -/
theorem DropsRestating.unique {t t₁ t₂ : Table} (h₁ : DropsRestating t t₁)
    (h₂ : DropsRestating t t₂) : t₁ = t₂ := by
  induction h₁ with
  | done hnone =>
    cases h₂ with
    | done _ => rfl
    | round hsome _ => rw [hnone] at hsome; cases hsome
  | round hsome _ ih =>
    cases h₂ with
    | done hnone => rw [hnone] at hsome; cases hsome
    | round hsome' hrest =>
      rw [hsome] at hsome'
      cases hsome'
      exact ih hrest

/-- With more rounds than constraints, the bounded loop runs the loop to its end: each round drops
a constraint at least. -/
theorem dropsRestating_dropRestatingKeys : ∀ (fuel : Nat) (t : Table), t.constraints.length < fuel →
    DropsRestating t (dropRestatingKeys fuel t)
  | 0, _, h => absurd h (Nat.not_lt_zero _)
  | fuel + 1, t, h => by
    unfold dropRestatingKeys
    split
    · next hnone => exact .done hnone
    · next u hu =>
      refine .round hu (dropsRestating_dropRestatingKeys fuel _ ?_)
      have hlt : (t.constraints.filter (·.id ≠ u.id)).length < t.constraints.length :=
        List.length_filter_lt_length_iff_exists.2 ⟨u, mem_of_uniqueRestatingKey? hu, by simp⟩
      dsimp only
      omega

/-- A round that drops only restating constraints keeps the key, and with it what restates it. -/
theorem restatesKey_round {t : Table} {u : Constraint} (hu : t.uniqueRestatingKey? = some u)
    (hapart : t.RestatingIdsApart) :
    ({ t with constraints := t.constraints.filter (·.id ≠ u.id) } : Table).restatesKey =
      t.restatesKey := by
  have hrestates : t.restatesKey u = true := by
    rw [uniqueRestatingKey?_eq_find?] at hu
    exact List.find?_some hu
  have humem : u ∈ t.constraints := mem_of_uniqueRestatingKey? hu
  have hkey : ({ t with constraints := t.constraints.filter (·.id ≠ u.id) } : Table).primaryKey? =
      t.primaryKey? := by
    unfold primaryKey?
    refine find?_filter_of_imp fun k hk hpk => ?_
    have hkind : k.kind = .primaryKey := by simpa using hpk
    by_contra hid
    have hk' := hapart u humem hrestates k hk (by simpa using hid)
    unfold restatesKey at hk'
    split at hk' <;> simp_all
  funext k
  unfold restatesKey
  rw [hkey]

/-- When restating constraints keep their ids apart, the rounds drop exactly the constraints that
restate the key. -/
theorem dropRestatingKeys_of_apart : ∀ (fuel : Nat) (t : Table), t.constraints.length < fuel →
    t.RestatingIdsApart →
    (dropRestatingKeys fuel t).constraints = t.constraints.filter (!t.restatesKey ·)
  | 0, _, h, _ => absurd h (Nat.not_lt_zero _)
  | fuel + 1, t, h, hapart => by
    unfold dropRestatingKeys
    split
    · next hnone =>
      rw [uniqueRestatingKey?_eq_find?, List.find?_eq_none] at hnone
      exact (List.filter_eq_self.2 fun k hk => by simpa using hnone k hk).symm
    · next u hu =>
      have hround := restatesKey_round hu hapart
      have hlt : (t.constraints.filter (·.id ≠ u.id)).length < t.constraints.length :=
        List.length_filter_lt_length_iff_exists.2 ⟨u, mem_of_uniqueRestatingKey? hu, by simp⟩
      have hapart' : ({ t with constraints := t.constraints.filter (·.id ≠ u.id) } : Table).RestatingIdsApart := by
        intro v hv hvr k hk hid
        rw [hround] at hvr ⊢
        exact hapart v (List.mem_of_mem_filter hv) hvr k (List.mem_of_mem_filter hk) hid
      rw [dropRestatingKeys_of_apart fuel _ (by dsimp only; omega) hapart', hround]
      dsimp only
      rw [List.filter_filter]
      -- what shares the id of `u` restates the key, so the id filter drops nothing more
      refine List.filter_congr fun k hk => ?_
      by_cases hid : k.id = u.id
      · have hrestates : t.restatesKey u = true := by
          rw [uniqueRestatingKey?_eq_find?] at hu
          exact List.find?_some hu
        simp [hid, hapart u (mem_of_uniqueRestatingKey? hu) hrestates k hk hid]
      · simp [hid]

/-! ## Pruning -/

theorem primaryKey?_dedupConstraints (t : Table) :
    ({ t with constraints := dedupBy Constraint.signature t.constraints } : Table).primaryKey? =
      t.primaryKey? := by
  unfold primaryKey?
  exact find?_dedupBy (fun k k' h => by simp [Constraint.signature] at h; rw [h.1]) _

/-- The last step of pruning keeps what `uniqueRestatingKey?` finds. -/
theorem uniqueRestatingKey?_dedupConstraints (t : Table) :
    ({ t with constraints := dedupBy Constraint.signature t.constraints } : Table).uniqueRestatingKey? =
      t.uniqueRestatingKey? := by
  have hrestates : ({ t with constraints := dedupBy Constraint.signature t.constraints } :
      Table).restatesKey = t.restatesKey := by
    funext k
    unfold restatesKey
    rw [primaryKey?_dedupConstraints]
  rw [uniqueRestatingKey?_eq_find?, uniqueRestatingKey?_eq_find?, hrestates]
  exact find?_dedupBy (fun k k' h => t.restatesKey_congr h) _

theorem uniqueRestatingKey?_pruneRedundantKeys (t : Table) :
    t.pruneRedundantKeys.uniqueRestatingKey? = none := by
  unfold pruneRedundantKeys
  dsimp only
  rw [uniqueRestatingKey?_dedupConstraints]
  exact uniqueRestatingKey?_dropRestatingKeys _ _ (Nat.lt_succ_self _)

/-- No UNIQUE constraint of a pruned table has its key's columns. -/
theorem pruneRedundantKeys_keyNotRestated (t : Table) {pk : Constraint}
    (hpk : t.pruneRedundantKeys.primaryKey? = some pk) :
    ∀ k ∈ t.pruneRedundantKeys.constraints, k.kind = .unique → ¬SameColumns k.columnIds pk.columnIds := by
  intro k hk hu hsame
  have hnone := uniqueRestatingKey?_pruneRedundantKeys t
  rw [uniqueRestatingKey?_eq_find?, List.find?_eq_none] at hnone
  apply hnone k hk
  simp [restatesKey, hpk, hu, sameItems_iff.2 hsame]

theorem find?_pruneRedundantKeys_indexes (t : Table) (σ : IndexType × List (Id × SortDir)) :
    t.pruneRedundantKeys.indexes.find? (·.signature = σ) = t.indexes.find? (·.signature = σ) := by
  rw [pruneRedundantKeys_indexes]
  exact find?_dedupBy (fun i i' h => by simp [h]) _

/-- When restating constraints keep their ids apart, the constraint kept for a definition that
restates no key is the first constraint with it. -/
theorem find?_pruneRedundantKeys_constraints {t : Table} (hapart : t.RestatingIdsApart)
    {k : Constraint} (hk : t.restatesKey k = false) :
    t.pruneRedundantKeys.constraints.find? (·.signature = k.signature) =
      t.constraints.find? (·.signature = k.signature) := by
  have hdrop : (dropRestatingKeys (t.constraints.length + 1)
      { t with indexes := dedupBy Index.signature t.indexes }).constraints =
      t.constraints.filter (!t.restatesKey ·) :=
    dropRestatingKeys_of_apart _ _ (Nat.lt_succ_self _) hapart
  rw [pruneRedundantKeys_constraints, find?_dedupBy (fun i i' h => by simp [h]), hdrop]
  refine find?_filter_of_imp fun k' _ hsig => ?_
  have hsig : k'.signature = k.signature := by simpa using hsig
  simpa [t.restatesKey_congr hsig] using hk

/-- Pruning a pruned table changes nothing. -/
theorem pruneRedundantKeys_idem (t : Table) :
    t.pruneRedundantKeys.pruneRedundantKeys = t.pruneRedundantKeys := by
  apply pruneRedundantKeys_eq_self
  · rw [pruneRedundantKeys_indexes]
    exact nodup_map_dedupBy _ _
  · rw [pruneRedundantKeys_constraints]
    exact nodup_map_dedupBy _ _
  · exact uniqueRestatingKey?_pruneRedundantKeys t

/-- Pruning is the source's loop: repeats of an index definition go, the loop dropping restating
UNIQUE constraints runs until its test finds none, and repeats of a constraint definition go. -/
theorem pruneRedundantKeys_eq_loop (t : Table) :
    ∃ t', DropsRestating { t with indexes := dedupBy Index.signature t.indexes } t' ∧
      t.pruneRedundantKeys = { t' with constraints := dedupBy Constraint.signature t'.constraints } :=
  ⟨_, dropsRestating_dropRestatingKeys _ _ (Nat.lt_succ_self _), rfl⟩

/-- Pruning drops only repeated definitions and UNIQUE constraints restating the key, keeps the
first of each definition and the order of the rest, and leaves nothing more to prune. -/
theorem pruneRedundantKeys_minimal (t : Table) :
    t.pruneRedundantKeys.columns = t.columns ∧
    t.pruneRedundantKeys.relationships = t.relationships ∧
    t.pruneRedundantKeys.indexes.Sublist t.indexes ∧
    t.pruneRedundantKeys.constraints.Sublist t.constraints ∧
    (t.pruneRedundantKeys.indexes.map (·.signature)).Nodup ∧
    (t.pruneRedundantKeys.constraints.map (·.signature)).Nodup ∧
    (∀ pk, t.pruneRedundantKeys.primaryKey? = some pk → ∀ k ∈ t.pruneRedundantKeys.constraints,
      k.kind = .unique → ¬SameColumns k.columnIds pk.columnIds) ∧
    (∀ σ, t.pruneRedundantKeys.indexes.find? (·.signature = σ) = t.indexes.find? (·.signature = σ)) ∧
    (t.RestatingIdsApart → ∀ k ∈ t.constraints, t.restatesKey k = false →
      t.pruneRedundantKeys.constraints.find? (·.signature = k.signature) =
        t.constraints.find? (·.signature = k.signature)) ∧
    t.pruneRedundantKeys.pruneRedundantKeys = t.pruneRedundantKeys ∧
    ∃ t', DropsRestating { t with indexes := dedupBy Index.signature t.indexes } t' ∧
      t.pruneRedundantKeys = { t' with constraints := dedupBy Constraint.signature t'.constraints } := by
  refine ⟨pruneRedundantKeys_columns t, pruneRedundantKeys_relationships t, ?_,
    pruneRedundantKeys_constraints_sublist t, ?_, ?_, fun pk hpk => pruneRedundantKeys_keyNotRestated t hpk,
    find?_pruneRedundantKeys_indexes t, fun hapart _ _ hk => find?_pruneRedundantKeys_constraints hapart hk,
    pruneRedundantKeys_idem t, pruneRedundantKeys_eq_loop t⟩
  · rw [pruneRedundantKeys_indexes]
    exact dedupBy_sublist _ _
  · rw [pruneRedundantKeys_indexes]
    exact nodup_map_dedupBy _ _
  · rw [pruneRedundantKeys_constraints]
    exact nodup_map_dedupBy _ _

/-- A key of table `t` on its column `a`. -/
def keyOnA : Constraint := ⟨⟨"k"⟩, ⟨"t"⟩, "pk_t", .primaryKey, none, none, [⟨⟨"k1"⟩, ⟨"a"⟩, 1⟩]⟩

/-- `t` keyed on `a`, with two UNIQUE constraints restating the key and a CHECK on `a` twice. -/
def keyedTwice : Table :=
  ⟨⟨"t"⟩, ⟨"s"⟩, "t", none, [⟨⟨"a"⟩, ⟨"t"⟩, "a", 1, some "INT", none, false, none, none, none⟩], [],
    [keyOnA,
     ⟨⟨"u1"⟩, ⟨"t"⟩, "uq_a", .unique, none, none, [⟨⟨"u11"⟩, ⟨"a"⟩, 1⟩]⟩,
     ⟨⟨"c1"⟩, ⟨"t"⟩, "ck_a", .check, some "a > 0", none, [⟨⟨"c11"⟩, ⟨"a"⟩, 1⟩]⟩,
     ⟨⟨"u2"⟩, ⟨"t"⟩, "uq_a2", .unique, none, none, [⟨⟨"u21"⟩, ⟨"a"⟩, 1⟩]⟩,
     ⟨⟨"c2"⟩, ⟨"t"⟩, "ck_a2", .check, some "a > 0", none, [⟨⟨"c21"⟩, ⟨"a"⟩, 1⟩]⟩], []⟩

theorem pruneRedundantKeys_minimal_keyedTwice :
    keyedTwice.RestatingIdsApart ∧ ∀ k ∈ keyedTwice.constraints, keyedTwice.restatesKey k = false →
      keyedTwice.pruneRedundantKeys.constraints.find? (·.signature = k.signature) =
        keyedTwice.constraints.find? (·.signature = k.signature) :=
  have hapart : keyedTwice.RestatingIdsApart := by decide
  ⟨hapart, (pruneRedundantKeys_minimal keyedTwice).2.2.2.2.2.2.2.2.1 hapart⟩

/-- `t` keyed on `a` by `keyOnA`, and a UNIQUE constraint on `a` under the key's id. -/
def sharedIdKeys : Table :=
  ⟨⟨"t"⟩, ⟨"s"⟩, "t", none, [⟨⟨"a"⟩, ⟨"t"⟩, "a", 1, some "INT", none, false, none, none, none⟩], [],
    [keyOnA, ⟨⟨"k"⟩, ⟨"t"⟩, "uq_t", .unique, none, none, [⟨⟨"k2"⟩, ⟨"a"⟩, 1⟩]⟩], []⟩

/-- Pruning drops the key of `sharedIdKeys`, the first constraint of its definition and no
UNIQUE constraint, together with the UNIQUE constraint that restates it under its id. -/
theorem pruneRedundantKeys_drops_key_sharing_id :
    sharedIdKeys.restatesKey keyOnA = false ∧
      sharedIdKeys.constraints.find? (·.signature = keyOnA.signature) = some keyOnA ∧
      sharedIdKeys.pruneRedundantKeys.constraints.find? (·.signature = keyOnA.signature) = none := by
  decide

end Table

end SchemaDesign
