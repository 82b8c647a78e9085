import SchemaDesign.Proofs.Edit.Release

/-!
# What a removal may take from a table

Removing a key, a column, a relationship or a table makes the key-removal cascade drop mappings
that depended on what went, and detach holder columns that nothing maps any more. This module
states, table by table, what such a change may do, and shows that each table change the
removals make does no more.

- `Relationship.TrimOf r' r`: `r'` is `r` with some mappings dropped; the mappings kept keep
  their ids, their columns and their order, and only their places are renumbered.
- `Table.Shrinks t t'`: `t'` is `t` with parts removed: columns, index and constraint entries,
  mappings and relationships; no primary key gains an entry.
- `Table.Trimmed cut t t'`: moreover every mapping `t'` no longer holds was cut (`cut`, chosen by
  the caller, says which mappings a removal may take), or lost its holder column.
- `Table.Justified t t'`: `t'` differs from `t` only if `t` lost a mapping, and every column it
  lost was the holder column of a lost mapping, which nothing maps any more.

`Trimmed` composes: a trimmed table trimmed again is trimmed, as long as `cut` looks at a
relationship without its mappings and at a mapping without its place. `Justified` is measured
from the snapshot a removal starts from, since a step may rewrite a table whose lost mapping an
earlier step took.
-/

namespace SchemaDesign

/-- A mapping without its place in the sequence: its id and the two columns it joins. -/
def KeyMapping.link (m : KeyMapping) : Id × Id × Id := (m.id, m.fkColumnId, m.pkColumnId)

/-- A relationship with its mappings left out. -/
def Relationship.head (r : Relationship) : Relationship := { r with columns := [] }

theorem Relationship.id_eq_of_head {r' r : Relationship} (h : r'.head = r.head) : r'.id = r.id := by
  have := congrArg Relationship.id h
  exact this

@[simp] theorem Relationship.head_columns (r : Relationship) (cs : List KeyMapping) :
    ({ r with columns := cs } : Relationship).head = r.head := rfl

/-- `r'` is `r` with some mappings dropped: the rest of `r` is as it was, and the mappings kept
keep their ids, columns and order. -/
def Relationship.TrimOf (r' r : Relationship) : Prop :=
  r'.head = r.head ∧ (r'.columns.map KeyMapping.link).Sublist (r.columns.map KeyMapping.link)

namespace Relationship

theorem TrimOf.refl (r : Relationship) : r.TrimOf r := ⟨rfl, List.Sublist.refl _⟩

instance : Std.Refl TrimOf := ⟨TrimOf.refl⟩

instance : IsTrans Relationship TrimOf := ⟨fun _ _ _ h₁ h₂ => ⟨h₁.1.trans h₂.1, h₁.2.trans h₂.2⟩⟩

theorem TrimOf.id_eq {r' r : Relationship} (h : r'.TrimOf r) : r'.id = r.id :=
  id_eq_of_head h.1

theorem TrimOf.fkTableId_eq {r' r : Relationship} (h : r'.TrimOf r) : r'.fkTableId = r.fkTableId := by
  have := congrArg Relationship.fkTableId h.1
  exact this

theorem mapsFkColumn_iff {r : Relationship} {c : Id} :
    r.mapsFkColumn c = true ↔ c ∈ (r.columns.map KeyMapping.link).map (·.2.1) := by
  rw [List.map_map]
  simp only [mapsFkColumn, List.any_eq_true, decide_eq_true_eq, List.mem_map, Function.comp_def,
    KeyMapping.link]

theorem TrimOf.mapsFkColumn {r' r : Relationship} (h : r'.TrimOf r) {c : Id}
    (hc : r'.mapsFkColumn c = true) : r.mapsFkColumn c = true := by
  rw [mapsFkColumn_iff] at hc ⊢
  exact (h.2.map _).subset hc

theorem filter_trimOf (r : Relationship) (p : KeyMapping → Bool) :
    ({ r with columns := renumber (fun m n => { m with seqNo := n }) (r.columns.filter p) } :
      Relationship).TrimOf r := by
  refine ⟨rfl, ?_⟩
  dsimp only
  rw [@map_renumber _ _ (fun m n => { m with seqNo := n }) KeyMapping.link (fun _ _ => rfl)]
  exact (List.filter_sublist).map _

end Relationship

section Lists

variable {α : Type} {R : α → α → Prop}

theorem sublistForall₂_filter_updateFirst [Std.Refl R] [IsTrans α R] {f : α → α}
    (hf : ∀ a, R (f a) a) (p q : α → Bool) (xs : List α) :
    List.SublistForall₂ R ((updateFirst p f xs).filter q) xs := by
  have hchanged : List.Forall₂ (fun a b => R b a) xs (updateFirst p f xs) :=
    @forall₂_updateFirst _ (fun a b => R b a) (fun a => Std.Refl.refl a) p f xs fun a _ => hf a
  exact IsTrans.trans _ _ _ List.filter_sublist.sublistForall₂
    (List.sublistForall₂_iff.2 ⟨xs, hchanged.flip, List.Sublist.refl _⟩)

theorem sublistForall₂_filter_map [Std.Refl R] [IsTrans α R] {f : α → α} (hf : ∀ a, R (f a) a)
    (q : α → Bool) (xs : List α) : List.SublistForall₂ R ((xs.map f).filter q) xs :=
  IsTrans.trans _ _ _ List.filter_sublist.sublistForall₂
    (List.sublistForall₂_map_left_iff.2
      (List.sublistForall₂_iff.2 ⟨xs, List.forall₂_same.2 fun a _ => hf a, List.Sublist.refl _⟩))

end Lists

/-- Each item stays after `updateFirst`, or it is the first that the test picks and its image is
there. -/
theorem mem_updateFirst_of_mem {α : Type} {p : α → Bool} {f : α → α} :
    ∀ {xs : List α} {x : α}, x ∈ xs →
      x ∈ updateFirst p f xs ∨ xs.find? p = some x ∧ f x ∈ updateFirst p f xs
  | y :: ys, x, hx => by
    unfold updateFirst
    by_cases hy : p y
    · rw [if_pos hy, List.find?_cons_of_pos hy]
      rcases List.mem_cons.1 hx with rfl | hx
      · exact .inr ⟨rfl, List.mem_cons_self⟩
      · exact .inl (List.mem_cons_of_mem _ hx)
    · rw [if_neg hy, List.find?_cons_of_neg hy]
      rcases List.mem_cons.1 hx with rfl | hx
      · exact .inl List.mem_cons_self
      · exact (mem_updateFirst_of_mem hx).imp (List.mem_cons_of_mem _)
          fun h => ⟨h.1, List.mem_cons_of_mem _ h.2⟩

/-- Among items with distinct keys, the one item after `updateFirst` with the key it looks for
is the image of the item it changed. -/
theorem eq_of_mem_updateFirst {α β : Type} [DecidableEq β] {key : α → β} {k : β} {f : α → α}
    (hf : ∀ x, key (f x) = key x) :
    ∀ {xs : List α}, (xs.map key).Nodup → ∀ {y : α}, y ∈ updateFirst (fun x => key x = k) f xs →
      key y = k → ∃ x, xs.find? (fun x => key x = k) = some x ∧ y = f x
  | x :: xs, hnd, y, hy, hky => by
    rw [List.map_cons, List.nodup_cons] at hnd
    unfold updateFirst at hy
    by_cases hx : key x = k
    · rw [if_pos (by simpa using hx)] at hy
      refine ⟨x, by simp [hx], ?_⟩
      rcases List.mem_cons.1 hy with rfl | hy
      · rfl
      · exact absurd (hx ▸ hky ▸ List.mem_map_of_mem hy) hnd.1
    · rw [if_neg (by simpa using hx)] at hy
      rcases List.mem_cons.1 hy with rfl | hy
      · exact absurd hky hx
      · obtain ⟨x', hx', rfl⟩ := eq_of_mem_updateFirst hf hnd.2 hy hky
        exact ⟨x', by simp [hx, hx'], rfl⟩

/-- Each item stays after `eraseP`, or it is the first that the test picks. -/
theorem mem_eraseP_of_mem {α : Type} {p : α → Bool} :
    ∀ {xs : List α} {x : α}, x ∈ xs → x ∈ xs.eraseP p ∨ xs.find? p = some x
  | y :: ys, x, hx => by
    by_cases hy : p y
    · rw [List.eraseP_cons_of_pos hy, List.find?_cons_of_pos hy]
      rcases List.mem_cons.1 hx with rfl | hx
      · exact .inr rfl
      · exact .inl hx
    · rw [List.eraseP_cons_of_neg hy, List.find?_cons_of_neg hy]
      rcases List.mem_cons.1 hx with rfl | hx
      · exact .inl List.mem_cons_self
      · exact (mem_eraseP_of_mem hx).imp_left (List.mem_cons_of_mem _)

/-- Relationships trimmed, some of them dropped, in order. -/
abbrev RelationshipsTrim (rs' rs : List Relationship) : Prop :=
  List.SublistForall₂ Relationship.TrimOf rs' rs

namespace RelationshipsTrim

theorem exists_of_mem {rs' rs : List Relationship} (h : RelationshipsTrim rs' rs) {r' : Relationship}
    (hr : r' ∈ rs') : ∃ r ∈ rs, r'.TrimOf r := by
  obtain ⟨l, hl, hsub⟩ := List.sublistForall₂_iff.1 h
  obtain ⟨r, hr, htrim⟩ := forall₂_exists_of_mem_right hl.flip hr
  exact ⟨r, hsub.subset hr, htrim⟩

theorem ids_sublist {rs' rs : List Relationship} (h : RelationshipsTrim rs' rs) :
    (rs'.map (·.id)).Sublist (rs.map (·.id)) := by
  obtain ⟨l, hl, hsub⟩ := List.sublistForall₂_iff.1 h
  rw [← forall₂_map_eq hl fun _ _ h => h.id_eq.symm]
  exact hsub.map _

end RelationshipsTrim

/-- `k'` is `k` with some entries dropped. -/
def Constraint.NarrowOf (k' k : Constraint) : Prop :=
  k'.kind = k.kind ∧ k'.columnIds.Sublist k.columnIds

namespace Constraint

theorem NarrowOf.refl (k : Constraint) : k.NarrowOf k := ⟨rfl, List.Sublist.refl _⟩

instance : Std.Refl NarrowOf := ⟨NarrowOf.refl⟩

instance : IsTrans Constraint NarrowOf := ⟨fun _ _ _ h₁ h₂ => ⟨h₁.1.trans h₂.1, h₁.2.trans h₂.2⟩⟩

/-- The key entries of constraints narrowed, some of them dropped, are among the key entries of
the constraints, in order. -/
theorem keyColumns_sublist : ∀ {ks' ks : List Constraint}, List.SublistForall₂ NarrowOf ks' ks →
    ((ks'.filter (·.isPrimaryKey)).flatMap (·.columnIds)).Sublist
      ((ks.filter (·.isPrimaryKey)).flatMap (·.columnIds))
  | _, _, .nil => by simp
  | k' :: _, k :: _, .cons hk rest => by
    have hkind : k'.isPrimaryKey = k.isPrimaryKey := by simp [isPrimaryKey, hk.1]
    rw [List.filter_cons, List.filter_cons, hkind]
    split
    · simp only [List.flatMap_cons]
      exact hk.2.append (keyColumns_sublist rest)
    · exact keyColumns_sublist rest
  | _, k :: _, .cons_right rest => by
    rw [List.filter_cons]
    split
    · rw [List.flatMap_cons]
      exact (keyColumns_sublist rest).trans (List.sublist_append_right _ _)
    · exact keyColumns_sublist rest

theorem withoutColumns_narrowOf (k : Constraint) (cs : List Id) : (k.withoutColumns cs).NarrowOf k := by
  refine ⟨rfl, ?_⟩
  unfold withoutColumns columnIds
  dsimp only
  rw [@map_renumber _ _ (fun c n => { c with seqNo := n }) ConstraintColumn.columnId (fun _ _ => rfl)]
  exact List.filter_sublist.map _

end Constraint

/-- Keeps the first of the items with equal keys: a sublist. -/
theorem dedupBy_sublist {α β : Type} [DecidableEq β] (key : α → β) (xs : List α) :
    (dedupBy key xs).Sublist xs := by
  -- the fold keeps, reversed in front of what it had, a sublist of what it read
  have hfold : ∀ (ys : List α) (seen : List β) (acc : List α), ∃ l : List α, l.Sublist ys ∧
      (ys.foldl (fun (acc : List β × List α) x =>
        if acc.1.contains (key x) then acc else (key x :: acc.1, x :: acc.2)) (seen, acc)).2 =
        l.reverse ++ acc := by
    intro ys
    induction ys with
    | nil => intro _ acc; exact ⟨[], List.Sublist.slnil, rfl⟩
    | cons y ys ih =>
      intro seen acc
      rw [List.foldl_cons]
      split
      · obtain ⟨l, hl, heq⟩ := ih seen acc
        exact ⟨l, hl.cons y, heq⟩
      · obtain ⟨l, hl, heq⟩ := ih (key y :: seen) (y :: acc)
        refine ⟨y :: l, hl.cons_cons y, ?_⟩
        rw [heq, List.reverse_cons, List.append_assoc, List.singleton_append]
  obtain ⟨l, hl, heq⟩ := hfold xs [] []
  unfold dedupBy
  rw [heq, List.append_nil, List.reverse_reverse]
  exact hl

namespace Table

/-- A table with its parts left out: its id, schema, name and comment. -/
def head (t : Table) : Table :=
  { t with columns := [], indexes := [], constraints := [], relationships := [] }

/-- How many entries the table's PRIMARY_KEY constraints have on a column. -/
def keyEntries (t : Table) (c : Id) : Nat :=
  ((t.constraints.filter (·.isPrimaryKey)).flatMap (·.columnIds)).count c

/-- The table holds mapping `m` of relationship `r`: a relationship of the table that is `r` but
for its mappings has a mapping with `m`'s id and columns. -/
def Holds (t : Table) (r : Relationship) (m : KeyMapping) : Prop :=
  ∃ r' ∈ t.relationships, r'.head = r.head ∧ m.link ∈ r'.columns.map KeyMapping.link

/-- `t'` is `t` with parts removed: columns, index and constraint entries, mappings and
relationships. Its primary keys gain no entry. -/
structure Shrinks (t t' : Table) : Prop where
  head : t'.head = t.head
  columns : (t'.columns.map (·.id)).Sublist (t.columns.map (·.id))
  relationships : RelationshipsTrim t'.relationships t.relationships
  constraints : List.SublistForall₂ Constraint.NarrowOf t'.constraints t.constraints

theorem Shrinks.refl (t : Table) : t.Shrinks t :=
  ⟨rfl, List.Sublist.refl _, Std.Refl.refl _, Std.Refl.refl _⟩

theorem Shrinks.trans {t₁ t₂ t₃ : Table} (h₁ : t₁.Shrinks t₂) (h₂ : t₂.Shrinks t₃) :
    t₁.Shrinks t₃ :=
  ⟨h₂.head.trans h₁.head, h₂.columns.trans h₁.columns,
    IsTrans.trans _ _ _ h₂.relationships h₁.relationships,
    IsTrans.trans _ _ _ h₂.constraints h₁.constraints⟩

instance : IsPreorder Table Shrinks where
  refl := Shrinks.refl
  trans _ _ _ := Shrinks.trans

theorem Shrinks.id_eq {t t' : Table} (h : t.Shrinks t') : t'.id = t.id := by
  have := congrArg Table.id h.head
  exact this

theorem Shrinks.keyEntries_le {t t' : Table} (h : t.Shrinks t') (c : Id) :
    t'.keyEntries c ≤ t.keyEntries c :=
  (Constraint.keyColumns_sublist h.constraints).count_le c

theorem Shrinks.holds {t t' : Table} (h : t.Shrinks t') {r : Relationship} {m : KeyMapping}
    (hm : t'.Holds r m) : t.Holds r m := by
  obtain ⟨r', hr', hhead, hlink⟩ := hm
  obtain ⟨r₀, hr₀, htrim⟩ := h.relationships.exists_of_mem hr'
  exact ⟨r₀, hr₀, htrim.1.symm.trans hhead, htrim.2.subset hlink⟩

theorem Shrinks.mapsFkColumn {t t' : Table} (h : t.Shrinks t') {c : Id} {r' : Relationship}
    (hr' : r' ∈ t'.relationships) (hc : r'.mapsFkColumn c = true) :
    ∃ r ∈ t.relationships, r.mapsFkColumn c = true := by
  obtain ⟨r, hr, htrim⟩ := h.relationships.exists_of_mem hr'
  exact ⟨r, hr, htrim.mapsFkColumn hc⟩

end Table

/-- `cut` looks at a relationship without its mappings and at a mapping without its place. -/
def CutStable (cut : Relationship → KeyMapping → Prop) : Prop :=
  ∀ r r' m m', r'.head = r.head → m'.link = m.link → cut r m → cut r' m'

namespace Table

/-- `t'` is `t` with parts removed, and every mapping `t'` no longer holds was cut. -/
structure Trimmed (cut : Relationship → KeyMapping → Prop) (t t' : Table) : Prop
    extends t.Shrinks t' where
  lost : ∀ r ∈ t.relationships, ∀ m ∈ r.columns, t'.Holds r m ∨ cut r m

variable {cut : Relationship → KeyMapping → Prop}

theorem Trimmed.refl (t : Table) : t.Trimmed cut t where
  toShrinks := Shrinks.refl t
  lost r hr _ hm := .inl ⟨r, hr, rfl, List.mem_map_of_mem hm⟩

theorem Trimmed.mono {cut' : Relationship → KeyMapping → Prop} (hcut : ∀ r m, cut r m → cut' r m)
    {t t' : Table} (h : t.Trimmed cut t') : t.Trimmed cut' t' where
  toShrinks := h.toShrinks
  lost r hr m hm := (h.lost r hr m hm).imp_right (hcut r m)

/-- A trim that cuts only mappings on columns the table does not map cuts nothing. -/
theorem Trimmed.of_unmapped {P : Id → Prop} {t t' : Table}
    (h : t.Trimmed (fun _ m => P m.fkColumnId) t')
    (hfree : ∀ r ∈ t.relationships, ∀ c, P c → r.mapsFkColumn c = false) : t.Trimmed cut t' where
  toShrinks := h.toShrinks
  lost r hr m hm := (h.lost r hr m hm).imp_right fun hc => by
    have hmaps : r.mapsFkColumn m.fkColumnId = true := by
      unfold Relationship.mapsFkColumn
      exact List.any_eq_true.2 ⟨m, hm, by simp⟩
    rw [hfree r hr _ hc] at hmaps
    exact absurd hmaps Bool.false_ne_true

/-- A mapping held along the way and lost later was cut then, so it counts as cut. -/
theorem Trimmed.trans (hcut : CutStable cut) {t₁ t₂ t₃ : Table} (h₁ : t₁.Trimmed cut t₂)
    (h₂ : t₂.Trimmed cut t₃) : t₁.Trimmed cut t₃ where
  toShrinks := h₁.toShrinks.trans h₂.toShrinks
  lost r hr m hm := by
    rcases h₁.lost r hr m hm with ⟨r₂, hr₂, hhead, hlink⟩ | hc
    · obtain ⟨m₂, hm₂, hlink₂⟩ := List.mem_map.1 hlink
      rcases h₂.lost r₂ hr₂ m₂ hm₂ with ⟨r₃, hr₃, hhead₃, hlink₃⟩ | hc
      · exact .inl ⟨r₃, hr₃, hhead₃.trans hhead, hlink₂ ▸ hlink₃⟩
      · exact .inr (hcut r₂ r m₂ m hhead.symm hlink₂.symm hc)
    · exact .inr hc

/-- `t'` differs from `t` only if `t` lost a mapping, and every column `t` lost was the holder
column of a lost mapping, which no relationship left maps. -/
structure Justified (t t' : Table) : Prop where
  changed : t' ≠ t → ∃ r ∈ t.relationships, ∃ m ∈ r.columns, ¬t'.Holds r m
  columnLost : ∀ c ∈ t.columns.map (·.id), c ∉ t'.columns.map (·.id) →
    (∃ r ∈ t.relationships, ∃ m ∈ r.columns, m.fkColumnId = c ∧ ¬t'.Holds r m) ∧
      ∀ r' ∈ t'.relationships, r'.mapsFkColumn c = false

theorem Justified.refl (t : Table) : t.Justified t where
  changed h := absurd rfl h
  columnLost _ hc hc' := absurd hc hc'

/-- A justified table shrunk further stays justified when the step brings its own lost mapping:
one for the change, and one for each column it removes, which nothing maps afterwards. -/
theorem Justified.step {t₀ t t' : Table} (h : t₀.Justified t) (hs : t.Shrinks t')
    (hchanged : t' ≠ t → ∃ r ∈ t₀.relationships, ∃ m ∈ r.columns, ¬t'.Holds r m)
    (hcolumn : ∀ c ∈ t.columns.map (·.id), c ∉ t'.columns.map (·.id) →
      (∃ r ∈ t₀.relationships, ∃ m ∈ r.columns, m.fkColumnId = c ∧ ¬t'.Holds r m) ∧
        ∀ r' ∈ t'.relationships, r'.mapsFkColumn c = false) :
    t₀.Justified t' where
  changed hne := by
    by_cases ht : t = t₀
    · subst ht
      exact hchanged hne
    · obtain ⟨r, hr, m, hm, hnot⟩ := h.changed ht
      exact ⟨r, hr, m, hm, fun hh => hnot (hs.holds hh)⟩
  columnLost c hc hc' := by
    by_cases hct : c ∈ t.columns.map (·.id)
    · exact hcolumn c hct hc'
    · obtain ⟨⟨r, hr, m, hm, hfk, hnot⟩, hfree⟩ := h.columnLost c hc hct
      refine ⟨⟨r, hr, m, hm, hfk, fun hh => hnot (hs.holds hh)⟩, fun r' hr' => ?_⟩
      cases hmaps : r'.mapsFkColumn c
      · rfl
      · obtain ⟨r₁, hr₁, hmaps₁⟩ := hs.mapsFkColumn hr' hmaps
        rw [hfree r₁ hr₁] at hmaps₁
        exact absurd hmaps₁ Bool.false_ne_true

/-! ## The table changes of removals -/

theorem pruneRedundantKeys_head (t : Table) : t.pruneRedundantKeys.head = t.head := by
  unfold pruneRedundantKeys
  dsimp only
  rw [dropRestatingKeys_eq]
  rfl

theorem dropRestatingKeys_constraints_sublist : ∀ (fuel : Nat) (t : Table),
    (dropRestatingKeys fuel t).constraints.Sublist t.constraints
  | 0, _ => List.Sublist.refl _
  | fuel + 1, t => by
    unfold dropRestatingKeys
    split
    · exact List.Sublist.refl _
    · exact (dropRestatingKeys_constraints_sublist fuel _).trans List.filter_sublist

theorem pruneRedundantKeys_constraints_sublist (t : Table) :
    t.pruneRedundantKeys.constraints.Sublist t.constraints := by
  unfold pruneRedundantKeys
  exact (dedupBy_sublist _ _).trans (dropRestatingKeys_constraints_sublist _ _)

/-- A change of indexes and constraints alone, narrowing and dropping constraints, trims the
table and loses no mapping. -/
theorem trimmed_of_constraints {t t' : Table} (hhead : t'.head = t.head)
    (hcolumns : t'.columns = t.columns) (hrels : t'.relationships = t.relationships)
    (hks : List.SublistForall₂ Constraint.NarrowOf t'.constraints t.constraints) :
    t.Trimmed cut t' where
  head := hhead
  columns := hcolumns ▸ List.Sublist.refl _
  relationships := hrels ▸ Std.Refl.refl _
  constraints := hks
  lost r hr _ hm := .inl ⟨r, hrels ▸ hr, rfl, List.mem_map_of_mem hm⟩

/-- Replacing the first relationship with an id by a trim of it, and dropping relationships left
without mappings, trims the table; the mappings the trim dropped are to be cut. -/
theorem trimmed_filter_updateFirst {t : Table} {rid : Id} {f : Relationship → Relationship}
    (hf : ∀ r, (f r).TrimOf r)
    (hcut : ∀ r, t.relationships.find? (·.id = rid) = some r → ∀ m ∈ r.columns,
      m.link ∉ (f r).columns.map KeyMapping.link → cut r m) :
    t.Trimmed cut { t with relationships :=
      (updateFirst (·.id = rid) f t.relationships).filter (!·.columns.isEmpty) } where
  head := rfl
  columns := List.Sublist.refl _
  relationships := sublistForall₂_filter_updateFirst hf _ _ _
  constraints := Std.Refl.refl _
  lost r hr m hm := by
    -- a relationship that still has the mapping is not dropped as empty
    have hkeep : ∀ r' ∈ updateFirst (·.id = rid) f t.relationships,
        m.link ∈ r'.columns.map KeyMapping.link →
          r' ∈ (updateFirst (·.id = rid) f t.relationships).filter (!·.columns.isEmpty) := by
      intro r' hr' hl
      obtain ⟨m', hm', -⟩ := List.mem_map.1 hl
      exact List.mem_filter.2 ⟨hr', by simpa using List.ne_nil_of_mem hm'⟩
    rcases mem_updateFirst_of_mem hr with hr' | ⟨hfirst, hfr⟩
    · exact .inl ⟨r, hkeep r hr' (List.mem_map_of_mem hm), rfl, List.mem_map_of_mem hm⟩
    · by_cases hl : m.link ∈ (f r).columns.map KeyMapping.link
      · exact .inl ⟨f r, hkeep _ hfr hl, (hf r).1, hl⟩
      · exact .inr (hcut r hfirst m hm hl)

/-- In a table whose relationships have distinct ids, after that change no relationship with the
id holds a mapping the trim drops. -/
theorem not_holds_filter_updateFirst {t : Table} (hnd : (t.relationships.map (·.id)).Nodup)
    {rid : Id} {f : Relationship → Relationship} (hf : ∀ r, (f r).TrimOf r) {r₀ : Relationship}
    (hr₀ : r₀.id = rid) {m : KeyMapping} (hgone : ∀ r, m.link ∉ (f r).columns.map KeyMapping.link) :
    ¬({ t with relationships :=
      (updateFirst (·.id = rid) f t.relationships).filter (!·.columns.isEmpty) } : Table).Holds r₀ m := by
  rintro ⟨r', hr', hhead, hl⟩
  have hid : r'.id = rid := (Relationship.id_eq_of_head hhead).trans hr₀
  obtain ⟨x, -, rfl⟩ := eq_of_mem_updateFirst (fun x => (hf x).id_eq) hnd (List.mem_filter.1 hr').1 hid
  exact hgone x hl

/-- Erasing the first relationship with an id trims the table; its mappings are to be cut. -/
theorem trimmed_eraseP {t : Table} {rid : Id}
    (hcut : ∀ r, t.relationships.find? (·.id = rid) = some r → ∀ m ∈ r.columns, cut r m) :
    t.Trimmed cut { t with relationships := t.relationships.eraseP (·.id = rid) } where
  head := rfl
  columns := List.Sublist.refl _
  relationships := List.eraseP_sublist.sublistForall₂
  constraints := Std.Refl.refl _
  lost r hr m hm := (mem_eraseP_of_mem hr).elim
    (fun h => .inl ⟨r, h, rfl, List.mem_map_of_mem hm⟩) fun h => .inr (hcut r h m hm)

theorem not_holds_eraseP {t : Table} (hnd : (t.relationships.map (·.id)).Nodup) {r₀ : Relationship}
    (m : KeyMapping) :
    ¬({ t with relationships := t.relationships.eraseP (·.id = r₀.id) } : Table).Holds r₀ m := by
  rintro ⟨r', hr', hhead, -⟩
  have hid : r'.id = r₀.id := Relationship.id_eq_of_head hhead
  exact not_mem_map_eraseP hnd (hid ▸ List.mem_map_of_mem hr')

theorem detachColumn_head (t : Table) (c : Id) : (t.detachColumn c).1.head = t.head := by
  unfold detachColumn
  split
  · exact pruneRedundantKeys_head _
  · rfl

theorem link_mem_withoutFkColumn {r : Relationship} {m : KeyMapping} (hm : m ∈ r.columns) {c : Id}
    (hc : m.fkColumnId ≠ c) : m.link ∈ (r.withoutFkColumn c).columns.map KeyMapping.link := by
  unfold Relationship.withoutFkColumn
  dsimp only
  rw [@map_renumber _ _ (fun m n => { m with seqNo := n }) KeyMapping.link (fun _ _ => rfl)]
  exact List.mem_map_of_mem (List.mem_filter.2 ⟨hm, by simpa using hc⟩)

/-- Detaching a column removes it, entries on it and its mappings, and relationships and
constraints left empty or redundant. -/
theorem shrinks_detachColumn (t : Table) (c : Id) : t.Shrinks (t.detachColumn c).1 where
  head := detachColumn_head t c
  columns := (columnsWithin_detachColumn t c).2
  relationships := by
    unfold detachColumn
    split
    · rw [pruneRedundantKeys_relationships]
      exact sublistForall₂_filter_map (fun r => Relationship.filter_trimOf r _) _ _
    · exact Std.Refl.refl _
  constraints := by
    unfold detachColumn
    split
    · exact IsTrans.trans _ _ _ (pruneRedundantKeys_constraints_sublist _).sublistForall₂
        (sublistForall₂_filter_map (fun k => Constraint.withoutColumns_narrowOf k _) _ _)
    · exact Std.Refl.refl _

/-- Detaching a column trims the table: the mappings it loses are those on the column. -/
theorem trimmed_detachColumn (t : Table) (c : Id) :
    t.Trimmed (fun _ m => m.fkColumnId = c) (t.detachColumn c).1 where
  toShrinks := shrinks_detachColumn t c
  lost r hr m hm := by
    by_cases hfk : m.fkColumnId = c
    · exact .inr hfk
    · refine .inl ?_
      unfold detachColumn
      split
      · have hl := link_mem_withoutFkColumn hm hfk
        obtain ⟨m', hm', -⟩ := List.mem_map.1 hl
        refine ⟨r.withoutFkColumn c, ?_, rfl, hl⟩
        rw [pruneRedundantKeys_relationships]
        exact List.mem_filter.2 ⟨List.mem_map_of_mem hr, by simpa using List.ne_nil_of_mem hm'⟩
      · exact ⟨r, hr, rfl, List.mem_map_of_mem hm⟩

/-- Detaching columns one after the other trims the table, losing only mappings on them. -/
theorem trimmed_foldl_detachColumn : ∀ (cs : List Id) (t : Table),
    t.Trimmed (fun _ m => m.fkColumnId ∈ cs) (cs.foldl (fun t c => (t.detachColumn c).1) t)
  | [], t => Trimmed.refl t
  | c :: cs, t => by
    have hstable : CutStable fun _ m => m.fkColumnId ∈ c :: cs := fun _ _ m m' _ hlink h => by
      have hfk : m'.fkColumnId = m.fkColumnId := congrArg (·.2.1) hlink
      show m'.fkColumnId ∈ c :: cs
      rw [hfk]
      exact h
    have h₁ : t.Trimmed (fun _ m => m.fkColumnId ∈ c :: cs) (t.detachColumn c).1 :=
      (trimmed_detachColumn t c).mono fun _ _ h => List.mem_cons.2 (.inl h)
    have h₂ : (t.detachColumn c).1.Trimmed (fun _ m => m.fkColumnId ∈ c :: cs)
        (cs.foldl (fun t c => (t.detachColumn c).1) (t.detachColumn c).1) :=
      (trimmed_foldl_detachColumn cs (t.detachColumn c).1).mono fun _ _ h => List.mem_cons_of_mem c h
    exact h₁.trans hstable h₂

end Table

end SchemaDesign
