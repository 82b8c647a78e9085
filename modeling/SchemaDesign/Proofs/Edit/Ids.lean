import SchemaDesign.Proofs.Validation
import SchemaDesign.Proofs.Edit.Links
import SchemaDesign.Editor

/-!
# Ids of a new index

Every caller-chosen id is checked with `ensureFreshId` against the snapshot as it stands when the
check runs. `createIndex` checks the index id and then each entry id, all against the snapshot
from before the index is added: the checks cannot see the draft's own ids. So a new index keeps
the ids of a snapshot distinct exactly when the draft's ids are distinct among themselves
(`Editor.apply_createIndex_ids_nodup_iff`), and a draft with two entries under one id is accepted
and leaves a snapshot that validation refuses (`Editor.createIndex_repeats_entry_id`).

The ids of a snapshot are compared as lists: adding an index to a table found by id permutes the
snapshot's ids into the old ones followed by the index's.
-/

namespace SchemaDesign

/-- The ids of a table and of its parts, in the order validation lists them. -/
def Table.ids (t : Table) : List Id := t.labelledIds.map (·.2)

/-- The ids of a snapshot, in the order validation lists them. -/
def Database.ids (db : Database) : List Id := db.labelledIds.map (·.2)

theorem Database.ids_eq (db : Database) :
    db.ids = db.id :: db.schemas.flatMap fun s => s.id :: s.tables.flatMap Table.ids := by
  simp [Database.ids, Database.labelledIds, List.map_flatMap]
  rfl

/-- A table uses an id exactly when the id is among its ids. -/
theorem Table.usesId_iff (t : Table) (x : Id) : t.usesId x = true ↔ x ∈ t.ids := by
  simp [Table.usesId, Table.ids, Table.labelledIds, List.map_flatMap, List.mem_flatMap, or_assoc,
    @eq_comm _ x]

/-- A snapshot uses an id exactly when the id is among its ids: `ensureFreshId` checks the ids
validation compares. -/
theorem Database.usesId_iff (db : Database) (x : Id) : db.usesId x = true ↔ x ∈ db.ids := by
  rw [ids_eq]
  simp [Database.usesId, Table.usesId_iff, List.mem_flatMap, @eq_comm _ x]

/-- Changing the first item that matches, when the change adds `extra` to what the item
contributes, adds `extra` to the whole, up to order. -/
theorem perm_flatMap_updateFirst {α β : Type} {p : α → Bool} {f : α → α} {g : α → List β}
    {extra : List β} : ∀ {xs : List α} {x : α}, xs.find? p = some x →
      (g (f x)).Perm (g x ++ extra) → ((updateFirst p f xs).flatMap g).Perm (xs.flatMap g ++ extra)
  | [], _, h, _ => by simp at h
  | y :: ys, x, hfind, hx => by
    unfold updateFirst
    by_cases hy : p y
    · rw [List.find?_cons_of_pos hy, Option.some.injEq] at hfind
      subst hfind
      rw [if_pos hy, List.flatMap_cons, List.flatMap_cons, List.append_assoc]
      exact (hx.append_right _).trans (by rw [List.append_assoc]; exact
        (List.perm_append_comm.append_left _))
    · rw [List.find?_cons_of_neg hy] at hfind
      rw [if_neg hy, List.flatMap_cons, List.flatMap_cons, List.append_assoc]
      exact (perm_flatMap_updateFirst hfind hx).append_left _

theorem Database.ids_updateTable {db : Database} {sid tid : Id} {t : Table}
    (ht : db.FindsTable sid tid t) {f : Table → Table} {extra : List Id}
    (hf : (f t).ids.Perm (t.ids ++ extra)) : (db.updateTable sid tid f).ids.Perm (db.ids ++ extra) := by
  obtain ⟨s, hs, hst⟩ := ht
  rw [ids_eq, ids_eq, List.cons_append]
  refine List.Perm.cons _ (perm_flatMap_updateFirst hs ?_)
  rw [List.cons_append]
  exact List.Perm.cons _ (perm_flatMap_updateFirst hst hf)

theorem Table.ids_addIndex (t : Table) (i : Index) :
    ({ t with indexes := t.indexes ++ [i] } : Table).ids.Perm (t.ids ++ (i.id :: i.columns.map (·.id))) := by
  refine List.perm_iff_count.2 fun x => ?_
  simp only [Table.ids, Table.labelledIds, List.flatMap_append, List.flatMap_singleton,
    List.map_append, List.map_cons, List.map_map, List.count_append, List.count_cons]
  simp only [Function.comp_def]
  omega

namespace EditM

/-- A fold whose every step leaves the snapshot as it is and appends one entry, under the id of
the item it took, unused in the snapshot: the entries carry the items' ids, each unused. -/
theorem foldlM_fresh_run {α β : Type} {f : List β → α → EditM (List β)} (key : β → Id)
    (idOf : α → Id)
    (hf : ∀ acc a st acc' st', (f acc a).run st = .ok acc' st' →
      st'.db = st.db ∧ acc'.map key = acc.map key ++ [idOf a] ∧ st.db.usesId (idOf a) = false) :
    ∀ (items : List α) (acc : List β) (st : Session) (res : List β) (st' : Session),
      (items.foldlM f acc).run st = .ok res st' →
      st'.db = st.db ∧ res.map key = acc.map key ++ items.map idOf ∧
        ∀ a ∈ items, st.db.usesId (idOf a) = false
  | [], acc, st, res, st', h => by
    obtain ⟨rfl, rfl⟩ := pure_run h
    simp
  | a :: items, acc, st, res, st', h => by
    rw [List.foldlM_cons] at h
    obtain ⟨acc₁, st₁, h₁, h₂⟩ := run_bind_ok h
    obtain ⟨hdb₁, hids₁, hfresh⟩ := hf acc a st acc₁ st₁ h₁
    obtain ⟨hdb, hids, hnew⟩ := foldlM_fresh_run key idOf hf items acc₁ st₁ res st' h₂
    rw [hdb₁] at hdb hnew
    refine ⟨hdb, by simp [hids, hids₁], fun b hb => ?_⟩
    rcases List.mem_cons.1 hb with rfl | hb
    · exact hfresh
    · exact hnew b hb

/-- The entries of a new index carry the draft's ids in order, each unused in the snapshot,
which the checks leave as it is. -/
theorem indexColumns_run {sid tid : Id} {name : String} {ds : List IndexColumnDraft}
    {st st' : Session} {cols : List IndexColumn}
    (h : (indexColumns sid tid name ds).run st = .ok cols st') :
    st'.db = st.db ∧ cols.map (·.id) = ds.map (·.id) ∧ ∀ d ∈ ds, st.db.usesId d.id = false := by
  unfold indexColumns at h
  -- one entry: the column exists, its id is fresh, and it is new in the index
  obtain ⟨hdb, hids, hnew⟩ := foldlM_fresh_run (·.id) (fun x : IndexColumnDraft × Nat => x.1.id)
    (by
      rintro acc ⟨d, n⟩ st acc' st' hstep
      dsimp only at hstep
      obtain ⟨_, st₁, h₁, h₂⟩ := run_bind_ok hstep
      obtain ⟨rfl, -⟩ := column_run h₁
      obtain ⟨_, st₂, h₃, h₄⟩ := run_bind_ok h₂
      obtain ⟨rfl, hfresh⟩ := ensureFreshId_run h₃
      split at h₄
      · obtain ⟨_, _, h₅, -⟩ := run_bind_ok h₄
        cases h₅
      · obtain ⟨rfl, rfl⟩ := pure_run h₄
        exact ⟨rfl, by simp, hfresh⟩) _ [] st cols st' h
  have hfst : (ds.zipIdx 1).map (fun x => x.1.id) = ds.map (·.id) := by
    conv_rhs => rw [← List.zipIdx_map_fst 1 ds, List.map_map]
    rfl
  refine ⟨hdb, by simpa [hfst] using hids, fun d hd => ?_⟩
  obtain ⟨i, hi, rfl⟩ := List.getElem_of_mem hd
  exact hnew (ds[i], i + 1) (List.mem_iff_getElem.2
    ⟨i, by simpa using hi, by simp [List.getElem_zipIdx, Nat.add_comm]⟩)
/-- A new index adds its id and the ids of its entries to the snapshot, up to order, each of them
unused before. -/
theorem createIndex_run {sid tid : Id} {d : IndexDraft} {st st' : Session} {u : Unit}
    (h : (createIndex sid tid d).run st = .ok u st') :
    st'.db.ids.Perm (st.db.ids ++ (d.id :: d.columns.map (·.id))) ∧
      ∀ x ∈ d.id :: d.columns.map (·.id), st.db.usesId x = false := by
  unfold createIndex at h
  obtain ⟨s, st₁, h₁, h₂⟩ := run_bind_ok h
  obtain ⟨hst₁, -⟩ := schema_run h₁
  subst st₁
  obtain ⟨t, st₂, h₃, h₄⟩ := run_bind_ok h₂
  obtain ⟨hst₂, ht⟩ := table_run h₃
  subst st₂
  obtain ⟨_, st₃, h₅, h₆⟩ := run_bind_ok h₄
  have hdb₃ : st.db = st₃.db := (keeps_checkIndexName sid d.name none : Keeps Eq _) _ _ _ h₅
  obtain ⟨_, st₄, h₇, h₈⟩ := run_bind_ok h₆
  obtain ⟨hst₄, hfresh⟩ := ensureFreshId_run h₇
  subst st₄
  dsimp only at h₈
  split at h₈
  · obtain ⟨_, _, h₉, -⟩ := run_bind_ok h₈
    cases h₉
  split at h₈
  · obtain ⟨_, _, h₉, -⟩ := run_bind_ok h₈
    cases h₉
  obtain ⟨cols, st₅, h₉, h₁₀⟩ := run_bind_ok h₈
  obtain ⟨hdb₅, hcols, hnew⟩ := indexColumns_run h₉
  obtain ⟨_, st₆, h₁₁, h₁₂⟩ := run_bind_ok h₁₀
  obtain ⟨hdb₆, -⟩ := modifyTable_run h₁₁
  have hdb' : st'.db = st₆.db := ((keeps_table sid tid).bind fun _ => keeps_check _) _ _ _ h₁₂ |>.symm
  rw [← hdb₃] at hfresh hnew
  rw [hdb₅, ← hdb₃] at hdb₆
  refine ⟨?_, ?_⟩
  · rw [hdb', hdb₆]
    refine Database.ids_updateTable ht ?_
    rw [← hcols]
    exact Table.ids_addIndex t _
  · simp only [List.mem_cons, List.mem_map]
    rintro x (rfl | ⟨c, hc, rfl⟩)
    · exact hfresh
    · exact hnew c hc

end EditM

/-- A new index keeps the ids of a valid snapshot distinct exactly when the ids the draft brings,
the index's and its entries', are distinct among themselves: each is checked against the snapshot
only, never against the others. -/
theorem Editor.apply_createIndex_ids_nodup_iff {config : EditorConfig} {supply : IdSupply}
    {db db' : Database} {sid tid : Id} {d : IndexDraft} (hv : db.validate = .ok ())
    (happ : (Editor.apply config supply db (.createIndex sid tid d)).result = .ok db') :
    (db'.labelledIds.map (·.2)).Nodup ↔ (d.id :: d.columns.map (·.id)).Nodup := by
  unfold Editor.apply at happ
  split at happ
  next st hrun =>
    cases happ
    obtain ⟨hperm, hfresh⟩ := EditM.createIndex_run hrun
    have hn : db.ids.Nodup := Database.labelledIds_nodup_of_validate hv
    -- the new ids are unused, so the only repeats can be among them
    have hdisj : ∀ x ∈ db.ids, ∀ y ∈ d.id :: d.columns.map (·.id), x ≠ y := by
      rintro x hx y hy rfl
      exact absurd ((Database.usesId_iff db x).2 hx) (by simpa using hfresh x hy)
    change st.db.ids.Nodup ↔ _
    rw [hperm.nodup_iff, List.nodup_append]
    exact ⟨fun h => h.2.1, fun h => ⟨hn, h, hdisj⟩⟩
  next => cases happ

/-- One table `t` with the integer columns `c1` and `c2`. -/
def twoColumns : Database :=
  ⟨⟨"db"⟩, [⟨⟨"s"⟩, ⟨"db"⟩, "s", .mysql, none, none, [
    ⟨⟨"t"⟩, ⟨"s"⟩, "t", none,
      [⟨⟨"c1"⟩, ⟨"t"⟩, "c1", 1, some "INT", none, false, none, none, none⟩,
       ⟨⟨"c2"⟩, ⟨"t"⟩, "c2", 2, some "INT", none, false, none, none, none⟩], [], [], []⟩]⟩]⟩

/-- An index `ix` of `t` on `c1` then `c2`, whose entries carry the ids `e₁` and `e₂`. -/
def indexOnBoth (e₁ e₂ : Id) : Operation :=
  .createIndex ⟨"s"⟩ ⟨"t"⟩ ⟨⟨"ix"⟩, "ix", .btree, [⟨e₁, ⟨"c1"⟩, .asc⟩, ⟨e₂, ⟨"c2"⟩, .asc⟩]⟩

theorem Editor.twoColumns_index_ids_nodup :
    twoColumns.validate = .ok () ∧
      ∃ db', (Editor.apply {} { seed := 0 } twoColumns (indexOnBoth ⟨"e1"⟩ ⟨"e2"⟩)).result = .ok db' ∧
        ((db'.labelledIds.map (·.2)).Nodup ↔ ([⟨"ix"⟩, ⟨"e1"⟩, ⟨"e2"⟩] : List Id).Nodup) := by
  have hv : twoColumns.validate = .ok () := by rfl
  obtain ⟨db', happ⟩ :
      ∃ db', (Editor.apply {} { seed := 0 } twoColumns (indexOnBoth ⟨"e1"⟩ ⟨"e2"⟩)).result = .ok db' :=
    ⟨_, rfl⟩
  exact ⟨hv, db', happ, Editor.apply_createIndex_ids_nodup_iff hv happ⟩

/-- Two entries of one new index under the same id are accepted, and the snapshot they leave is
refused. -/
theorem Editor.createIndex_repeats_entry_id :
    twoColumns.validate = .ok () ∧
      ∃ db', (Editor.apply {} { seed := 0 } twoColumns (indexOnBoth ⟨"e"⟩ ⟨"e"⟩)).result = .ok db' ∧
        db'.validate = .error (.entityIdNotUnique "index column" ⟨"e"⟩) :=
  ⟨by rfl, _, rfl, by rfl⟩

end SchemaDesign
