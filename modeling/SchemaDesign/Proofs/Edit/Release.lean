import SchemaDesign.Proofs.Edit.Acyclic

/-!
# Deleting a relationship releases its holder columns

`deleteRelationship` takes the relationship off its holder and hands its holder columns to
`releaseFkColumns`, which runs the key-removal cascade from those that no relationship left on
the holder maps and then detaches them. Nothing records whether a holder column was created for
the relationship or was already there when one of its mappings reused it, so every column that
only the deleted relationship maps leaves the holder (`Editor.apply_deleteRelationship_releases`).

The cascade only ever removes columns: `Table.ColumnsWithin` relates a table to one with some of
its columns removed, and the cascade keeps it table by table. In a table whose columns have
distinct ids, detaching a column leaves none with its id.
-/

namespace SchemaDesign

/-- The ids of `t'`'s columns, in order, are among those of `t`, and the tables have one id. -/
def Table.ColumnsWithin (t t' : Table) : Prop :=
  t'.id = t.id ∧ (t'.columns.map (·.id)).Sublist (t.columns.map (·.id))

/-- No item left after erasing the first with key `k` from items with distinct keys has key
`k`. -/
theorem not_mem_map_eraseP {α β : Type} [DecidableEq β] {key : α → β} {k : β} :
    ∀ {l : List α}, (l.map key).Nodup → k ∉ (l.eraseP fun x => key x = k).map key
  | [], _ => by simp
  | x :: xs, h => by
    rw [List.map_cons, List.nodup_cons] at h
    by_cases hx : key x = k
    · rw [List.eraseP_cons_of_pos (by simpa using hx), ← hx]
      exact h.1
    · rw [List.eraseP_cons_of_neg (by simpa using hx), List.map_cons, List.mem_cons, not_or]
      exact ⟨Ne.symm hx, not_mem_map_eraseP h.2⟩

/-- Renumbering changes only what the numbering sets. -/
theorem map_renumber {α β : Type} {set : α → Nat → α} {g : α → β} (hg : ∀ x n, g (set x n) = g x)
    (xs : List α) : (renumber set xs).map g = xs.map g := by
  unfold renumber
  rw [List.map_map]
  conv_rhs => rw [← List.zipIdx_map_fst 1 xs, List.map_map]
  exact List.map_congr_left fun (p : α × Nat) _ => hg p.1 p.2

namespace Table

instance : IsPreorder Table ColumnsWithin where
  refl _ := ⟨rfl, List.Sublist.refl _⟩
  trans _ _ _ h₁ h₂ := ⟨h₂.1.trans h₁.1, h₂.2.trans h₁.2⟩

/-- The column ids after detaching `c`: those before, without the first `c`. -/
theorem detachColumn_columnIds (t : Table) (c : Id) :
    (t.detachColumn c).1.columns.map (·.id) = (t.columns.eraseP (·.id = c)).map (·.id) := by
  unfold detachColumn
  split
  · simp only [pruneRedundantKeys_columns]
    refine map_renumber ?_ _
    intro _ _
    rfl
  · next hc =>
    rw [List.eraseP_of_forall_not (by simpa using hc)]

theorem columnsWithin_detachColumn (t : Table) (c : Id) : t.ColumnsWithin (t.detachColumn c).1 :=
  ⟨by simp, by rw [detachColumn_columnIds]; exact List.eraseP_sublist.map _⟩

theorem allowsCascade_columnsWithin : AllowsCascade ColumnsWithin :=
  ⟨fun _ _ _ => ⟨rfl, List.Sublist.refl _⟩, columnsWithin_detachColumn⟩

theorem not_mem_detachColumn {t : Table} (h : (t.columns.map (·.id)).Nodup) (c : Id) :
    c ∉ (t.detachColumn c).1.columns.map (·.id) := by
  rw [detachColumn_columnIds]
  exact not_mem_map_eraseP h

/-- Detaching columns one after the other, `c` among them, from a table whose columns have
distinct ids leaves no column `c`. -/
theorem not_mem_foldl_detachColumn {c : Id} : ∀ {cs : List Id} {t : Table},
    (t.columns.map (·.id)).Nodup → c ∈ cs →
      c ∉ (cs.foldl (fun t c => (t.detachColumn c).1) t).columns.map (·.id)
  | c' :: cs, t, hnd, hc => by
    rw [List.foldl_cons]
    rcases List.mem_cons.1 hc with rfl | hc
    · exact fun h => not_mem_detachColumn hnd c
        ((allowsCascade_columnsWithin.foldl_detach cs _).2.subset h)
    · exact not_mem_foldl_detachColumn (hnd.sublist (columnsWithin_detachColumn t c').2) hc

end Table

namespace EditM

/-- After releasing holder columns, a column among them that no relationship of the holder maps
is no longer a column of the holder, whether the cascade removed it or the release did. -/
theorem releaseFkColumns_run {sid hid : Id} {fks : List Id} {st st' : Session} {u : Unit}
    (h : (releaseFkColumns sid hid fks).run st = .ok u st') {t : Table}
    (ht : st.db.FindsTable sid hid t) (hnd : (t.columns.map (·.id)).Nodup) {c : Id} (hc : c ∈ fks)
    (hfree : ∀ r ∈ t.relationships, r.mapsFkColumn c = false) :
    ∀ t', st'.db.FindsTable sid hid t' → c ∉ t'.columns.map (·.id) := by
  unfold releaseFkColumns at h
  obtain ⟨holder, st₁, h₁, h₂⟩ := run_bind_ok h
  obtain ⟨rfl, hholder⟩ := table_run h₁
  obtain rfl := Database.FindsTable.unique hholder ht
  have horph : c ∈ fks.filter fun c => !holder.relationships.any (·.mapsFkColumn c) := by
    simp only [List.mem_filter, hc, true_and, Bool.not_eq_eq_eq_not, Bool.not_true,
      List.any_eq_false]
    exact fun r hr => by simp [hfree r hr]
  dsimp only at h₂
  split at h₂
  · -- the cascade keeps each table's columns among its own, and the holder is found again
    obtain ⟨n, st₂, h₃, h₄⟩ := run_bind_ok h₂
    have hcas := tablewise_cascadeKeyRemoval Table.allowsCascade_columnsWithin _ _ _ _ _ _ h₃
    intro t' ht'
    rw [(modifyTable_run h₄).1, Database.findsTable_updateTable fun t ht =>
      ((Table.allowsCascade_columnsWithin.foldl_detach _ t).1.trans ht)] at ht'
    obtain ⟨t₂, ht₂, rfl⟩ := ht'
    obtain ⟨t₀, ht₀, hw⟩ := Database.Tablewise.findsTable (fun _ _ h => h.1) hcas ht₂
    obtain rfl := Database.FindsTable.unique ht₀ ht
    exact Table.not_mem_foldl_detachColumn (hnd.sublist hw.2) horph
  · next hnone =>
    simp only [Bool.not_eq_true', List.isEmpty_eq_false_iff, ne_eq, Decidable.not_not] at hnone
    rw [hnone] at horph
    exact absurd horph List.not_mem_nil

/-- Deleting a relationship found by id, in a schema with distinct table and relationship ids,
leaves its holder without each holder column that no other relationship of the holder maps. -/
theorem deleteRelationship_run {sid rid : Id} {st st' : Session} {u : Unit}
    (h : (deleteRelationship sid rid).run st = .ok u st') {s : Schema} {holder : Table}
    {r : Relationship} (hs : st.db.schema? sid = some s) (hr : s.relationship? rid = some (holder, r))
    (hids : (s.tables.map (·.id)).Nodup) (hrids : (s.relationships.map (·.id)).Nodup)
    (hcols : (holder.columns.map (·.id)).Nodup) {c : Id} (hc : c ∈ r.fkColumnIds)
    (hsole : ∀ o ∈ holder.relationships, o.id ≠ rid → o.mapsFkColumn c = false) :
    ∀ t', st'.db.FindsTable sid holder.id t' → c ∉ t'.columns.map (·.id) := by
  obtain ⟨hholder, hfind⟩ := Schema.relationship?_spec hr
  unfold deleteRelationship at h
  obtain ⟨found, st₁, h₁, h₂⟩ := run_bind_ok h
  obtain ⟨hdb₁, s₁, hs₁, hfound⟩ := reads_relationship sid rid _ _ _ h₁
  rw [hs, Option.some.injEq] at hs₁
  subst hs₁
  rw [hr, Option.some.injEq] at hfound
  subst hfound
  obtain ⟨t, st₂, h₃, h₄⟩ := run_bind_ok h₂
  obtain ⟨rfl, s₂, hs₂, ht⟩ := table_run h₃
  -- the table read is the holder, since table ids are distinct
  rw [hdb₁, hs, Option.some.injEq] at hs₂
  subst hs₂
  rw [Schema.table?_of_mem hids hholder, Option.some.injEq] at ht
  subst ht
  rw [hfind] at h₄
  obtain ⟨_, st₃, h₅, h₆⟩ := run_bind_ok h₄
  obtain ⟨_, st₄, h₇, h₈⟩ := run_bind_ok h₆
  -- the holder is put back without the relationship
  have hput : st₄.db.FindsTable sid holder.id
      { holder with relationships := holder.relationships.eraseP (·.id = rid) } := by
    rw [emit_run h₇, (modifyTable_run h₅).1]
    refine (Database.findsTable_updateTable ?_).2 ⟨holder, ⟨s, ?_, ?_⟩, rfl⟩
    · exact fun _ _ => rfl
    · rw [hdb₁]
      exact hs
    · exact Schema.table?_of_mem hids hholder
  refine releaseFkColumns_run h₈ hput hcols hc ?_
  -- with distinct relationship ids, what is left of the holder's relationships is the others
  have hsub : holder.relationships.Sublist s.relationships := by
    rw [Schema.relationships, List.flatMap_def]
    exact List.sublist_flatten_of_mem (List.mem_map_of_mem hholder)
  have hnd : (holder.relationships.map (·.id)).Nodup := hrids.sublist (hsub.map _)
  intro o ho
  refine hsole o (List.eraseP_subset ho) fun hid => ?_
  exact not_mem_map_eraseP hnd (hid ▸ List.mem_map_of_mem ho)

end EditM

/-- Deleting a relationship from a valid snapshot detaches every holder column it maps that no
other relationship of the holder maps, whether the relationship's creation added the column or
found it there: afterwards the holder has no column with that id. -/
theorem Editor.apply_deleteRelationship_releases {config : EditorConfig} {supply : IdSupply}
    {db db' : Database} {sid rid : Id} {s : Schema} {holder : Table} {r : Relationship} {c : Id}
    (hv : db.validate = .ok ())
    (happ : (Editor.apply config supply db (.deleteRelationship sid rid)).result = .ok db')
    (hs : db.schema? sid = some s) (hr : s.relationship? rid = some (holder, r))
    (hc : c ∈ r.fkColumnIds) (hsole : ∀ o ∈ holder.relationships, o.id ≠ rid → o.mapsFkColumn c = false) :
    ∀ t', db'.FindsTable sid holder.id t' → t'.column? c = none := by
  unfold Editor.apply at happ
  split at happ
  next st hrun =>
    cases happ
    have hn := Database.labelledIds_nodup_of_validate hv
    have hsm : s ∈ db.schemas := List.mem_of_find?_eq_some hs
    intro t' ht'
    have hgone := EditM.deleteRelationship_run hrun hs hr (Database.tableIds_nodup hn hsm)
      (Database.relationshipIds_nodup hn hsm)
      (Database.columnIds_nodup hn hsm (Schema.relationship?_spec hr).1) hc hsole t' ht'
    rw [Table.column?, List.find?_eq_none]
    exact fun col hcol hid => hgone (List.mem_map.2 ⟨col, hcol, of_decide_eq_true hid⟩)
  next => cases happ

/-- Tables `p`, keyed by `p1`, and `h`, with columns `h1` and `x`, keyed by `h1` and holding
`rels`. -/
def parentAndHolder (rels : List Relationship) : Database :=
  ⟨⟨"db"⟩, [⟨⟨"s"⟩, ⟨"db"⟩, "s", .mysql, none, none, [
    ⟨⟨"p"⟩, ⟨"s"⟩, "p", none,
      [⟨⟨"p1"⟩, ⟨"p"⟩, "p1", 1, some "INT", none, false, none, none, none⟩], [],
      [⟨⟨"kp"⟩, ⟨"p"⟩, "pk_p", .primaryKey, none, none, [⟨⟨"kpp1"⟩, ⟨"p1"⟩, 1⟩]⟩], []⟩,
    ⟨⟨"h"⟩, ⟨"s"⟩, "h", none,
      [⟨⟨"h1"⟩, ⟨"h"⟩, "h1", 1, some "INT", none, false, none, none, none⟩,
       ⟨⟨"x"⟩, ⟨"h"⟩, "x", 2, some "INT", none, false, none, none, none⟩], [],
      [⟨⟨"kh"⟩, ⟨"h"⟩, "pk_h", .primaryKey, none, none, [⟨⟨"khh1"⟩, ⟨"h1"⟩, 1⟩]⟩], rels⟩]⟩]⟩

/-- The relationship from `h` to `p` that maps `p1` onto `x`. -/
def holderOnParent : Relationship :=
  ⟨⟨"r"⟩, ⟨"h"⟩, ⟨"p"⟩, "r", .nonIdentifying, .oneToMany, .noAction, .noAction,
    [⟨⟨"m"⟩, ⟨"x"⟩, ⟨"p1"⟩, 1⟩]⟩

set_option maxRecDepth 100000 in
theorem Editor.holderOnParent_released :
    (parentAndHolder [holderOnParent]).validate = .ok () ∧
      ∃ db', (Editor.apply {} { seed := 0 } (parentAndHolder [holderOnParent])
        (.deleteRelationship ⟨"s"⟩ ⟨"r"⟩)).result = .ok db' ∧
        ∀ t', db'.FindsTable ⟨"s"⟩ ⟨"h"⟩ t' → t'.column? ⟨"x"⟩ = none := by
  have hv : (parentAndHolder [holderOnParent]).validate = .ok () := by rfl
  obtain ⟨db', happ⟩ : ∃ db', (Editor.apply {} { seed := 0 } (parentAndHolder [holderOnParent])
      (.deleteRelationship ⟨"s"⟩ ⟨"r"⟩)).result = .ok db' := ⟨_, rfl⟩
  exact ⟨hv, db', happ, Editor.apply_deleteRelationship_releases hv happ rfl rfl (by decide)
    (by decide)⟩

/-- Creating the relationship `r` with its mapping onto the existing column `x`. -/
def createHolderOnParent : Operation :=
  .createRelationship ⟨"s"⟩ ⟨⟨"r"⟩, ⟨"h"⟩, ⟨"p"⟩, "r", .nonIdentifying, .oneToMany, .noAction,
    .noAction, [⟨⟨"m"⟩, ⟨"p1"⟩, ⟨"x"⟩, none⟩]⟩

set_option maxRecDepth 100000 in
/-- Creating a relationship whose mapping reuses the column `x`, then deleting it, loses `x`: the
deletion does not give back the snapshot the creation started from. -/
theorem Editor.deleteRelationship_loses_reused_column :
    (parentAndHolder []).validate = .ok () ∧
      (∀ s ∈ (parentAndHolder []).schemas, ∀ t ∈ s.tables, (∀ i ∈ t.indexes, i.columns ≠ []) ∧
        (∀ k ∈ t.constraints, k.columns ≠ []) ∧ t.uniqueRestatingKey? = none) ∧
      ∃ db₁ db₂,
        (Editor.apply {} { seed := 0 } (parentAndHolder []) createHolderOnParent).result = .ok db₁ ∧
        (Editor.apply {} (Editor.apply {} { seed := 0 } (parentAndHolder []) createHolderOnParent).supply
          db₁ (.deleteRelationship ⟨"s"⟩ ⟨"r"⟩)).result = .ok db₂ ∧ db₂ ≠ parentAndHolder [] :=
  ⟨by rfl, by decide, _, _, rfl, rfl, by decide⟩

end SchemaDesign
