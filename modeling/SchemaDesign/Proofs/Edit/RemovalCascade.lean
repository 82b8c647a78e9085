import SchemaDesign.Proofs.Edit.Trim
import SchemaDesign.Proofs.Validation
import SchemaDesign.Proofs.Edit.Worklists

/-!
# The key-removal cascade takes only what depends on what went

`Database.TrimmedFrom sid target cut db₀ db` says what a removal in schema `sid` has done so far
to the snapshot `db₀` it started from: each table is trimmed by `cut` (`Table.Trimmed`), each
table but the target changed only where it lost a mapping (`Table.Justified`), and the other
schemas are as they were. `Database.Removing` adds the columns that are gone, `gone`: the
mappings that reference one of them may be cut too. Each cascade adds to the cut the mappings
that reference one of its seeds (a surviving seed only through an identifying relationship).

Dropping one mapping keeps this (`dropMapping_removing`); so does a round of the worklist, and
by induction on the fuel the whole cascade (`cascadeKeyRemoval_removing`). Releasing the holder
columns of a deleted relationship detaches only columns whose mappings went with it, and
deleting a relationship keeps the state with the relationship's mappings cut
(`deleteRelationship_removing`). Ids the lookups need distinct are those of the snapshot the
removal started from, which every trimmed snapshot inherits (`Schema.Distinct`).
-/

namespace SchemaDesign

/-- The snapshot has column `cid` in table `tid` of schema `sid`. -/
def Database.HasColumn (db : Database) (sid tid cid : Id) : Prop :=
  ∃ t, db.FindsTable sid tid t ∧ cid ∈ t.columns.map (·.id)

/-- Distinct column and relationship ids, and relationships stored on their holders. -/
structure Table.Distinct (t : Table) : Prop where
  columns : (t.columns.map (·.id)).Nodup
  relationships : (t.relationships.map (·.id)).Nodup
  holder : ∀ r ∈ t.relationships, r.fkTableId = t.id

/-- Distinct table ids, and distinct tables. -/
structure Schema.Distinct (s : Schema) : Prop where
  tables : (s.tables.map (·.id)).Nodup
  table : ∀ t ∈ s.tables, t.Distinct

theorem Table.Distinct.of_shrinks {t t' : Table} (h : t.Distinct) (hs : t.Shrinks t') : t'.Distinct where
  columns := h.columns.sublist hs.columns
  relationships := h.relationships.sublist hs.relationships.ids_sublist
  holder r' hr' := by
    obtain ⟨r, hr, htrim⟩ := hs.relationships.exists_of_mem hr'
    rw [htrim.fkTableId_eq, h.holder r hr, hs.id_eq]

/-- An accepted snapshot's schemas are distinct. -/
theorem Database.distinct_of_validate {db : Database} (h : db.validate = .ok ()) {s : Schema}
    (hs : s ∈ db.schemas) : s.Distinct := by
  have hn := labelledIds_nodup_of_validate h
  refine ⟨tableIds_nodup hn hs, fun t ht => ⟨columnIds_nodup hn hs ht, ?_,
    fun r hr => fkTableId_of_validate h hs ht hr⟩⟩
  have hsub : t.relationships.Sublist s.relationships := by
    rw [Schema.relationships, List.flatMap_def]
    exact List.sublist_flatten_of_mem (List.mem_map_of_mem ht)
  exact (relationshipIds_nodup hn hs).sublist (hsub.map _)

/-- Replacing the first item a test picks keeps a one-to-one relation when the image is related to
the item its partner is related to. -/
theorem forall₂_updateFirst_right {α β : Type} {R : α → β → Prop} {p : α → Bool} {q : β → Bool}
    {f : β → β} (hpq : ∀ a b, R a b → q b = p a) {xs : List α} {ys : List β}
    (h : List.Forall₂ R xs ys) :
    (∀ a b, xs.find? p = some a → ys.find? q = some b → R a b → R a (f b)) →
      List.Forall₂ R xs (updateFirst q f ys) := by
  induction h with
  | nil => exact fun _ => .nil
  | @cons a b _ _ hab rest ih =>
    intro hf
    unfold updateFirst
    by_cases hb : q b
    · rw [if_pos hb]
      have ha : p a = true := (hpq a b hab) ▸ hb
      exact .cons (hf a b (by simp [ha]) (by simp [hb]) hab) rest
    · rw [if_neg hb]
      have ha : ¬p a = true := (hpq a b hab) ▸ hb
      exact .cons hab (ih fun a' b' ha' hb' => hf a' b' (by simp [ha, ha']) (by simp [hb, hb']))

/-- `updateFirst` keeps what a lookup for another key finds. -/
theorem find?_updateFirst_of_disjoint {α : Type} {p q : α → Bool} {f : α → α}
    (hf : ∀ x, p x = true → q x = false ∧ q (f x) = false) :
    ∀ xs : List α, (updateFirst p f xs).find? q = xs.find? q
  | [] => rfl
  | x :: xs => by
    unfold updateFirst
    by_cases hx : p x
    · rw [if_pos hx, List.find?_cons_of_neg (by simp [(hf x hx).2]),
        List.find?_cons_of_neg (by simp [(hf x hx).1])]
    · rw [if_neg hx]
      simp only [List.find?_cons]
      rw [find?_updateFirst_of_disjoint hf xs]

/-- From `db₀`, `db` trimmed every table by `cut` and changed every table but the target only
where it lost a mapping; the other schemas are as they were. -/
structure Database.TrimmedFrom (sid : Id) (target : Option Id)
    (cut : Relationship → KeyMapping → Prop) (db₀ db : Database) : Prop where
  tables : db₀.Tablewise (fun t₀ t => t₀.Trimmed cut t ∧ (some t₀.id ≠ target → t₀.Justified t)) db
  others : ∀ s ∈ db₀.schemas, s.id ≠ sid → db.schema? s.id = some s

namespace Database.TrimmedFrom

variable {sid : Id} {target : Option Id} {cut : Relationship → KeyMapping → Prop} {db₀ db : Database}

theorem refl (db₀ : Database) (hs : (db₀.schemas.map (·.id)).Nodup) :
    db₀.TrimmedFrom sid target cut db₀ where
  tables := ⟨rfl, List.forall₂_same.2 fun _ _ => ⟨rfl, List.forall₂_same.2 fun t _ =>
    ⟨Table.Trimmed.refl t, fun _ => Table.Justified.refl t⟩⟩⟩
  others _ hsm _ := find?_key_eq_of_mem hs hsm

theorem mono {cut' : Relationship → KeyMapping → Prop} (hcut : ∀ r m, cut r m → cut' r m)
    (h : db₀.TrimmedFrom sid target cut db) : db₀.TrimmedFrom sid target cut' db where
  tables := h.tables.mono fun _ _ ht => ⟨ht.1.mono hcut, ht.2⟩
  others := h.others

theorem findsTable (h : db₀.TrimmedFrom sid target cut db) {sid' tid : Id} {t : Table}
    (ht : db.FindsTable sid' tid t) :
    ∃ t₀, db₀.FindsTable sid' tid t₀ ∧ t₀.Trimmed cut t ∧ (some t₀.id ≠ target → t₀.Justified t) :=
  let ⟨t₀, ht₀, hrel⟩ := Database.Tablewise.findsTable (fun _ _ h => h.1.id_eq) h.tables ht
  ⟨t₀, ht₀, hrel⟩

/-- The schema the snapshot finds corresponds to the one `db₀` finds, table by table. -/
theorem schema? (h : db₀.TrimmedFrom sid target cut db) {sid' : Id} {s : Schema}
    (hs : db.schema? sid' = some s) : ∃ s₀, db₀.schema? sid' = some s₀ ∧
      List.Forall₂ (fun t₀ t => t₀.Trimmed cut t ∧ (some t₀.id ≠ target → t₀.Justified t))
        s₀.tables s.tables := by
  have hsid : ∀ (s₀ s : Schema), s.id = s₀.id ∧ List.Forall₂ (fun t₀ t =>
      t₀.Trimmed cut t ∧ (some t₀.id ≠ target → t₀.Justified t)) s₀.tables s.tables →
        decide (s.id = sid') = decide (s₀.id = sid') := fun _ _ h => by rw [h.1]
  obtain ⟨s₀, hs₀, -, htables⟩ := forall₂_find? hsid h.tables.2 hs
  exact ⟨s₀, hs₀, htables⟩

/-- The schema the snapshot finds inherits the distinct ids of the one `db₀` finds. -/
theorem distinct (h : db₀.TrimmedFrom sid target cut db) {sid' : Id} {s₀ s : Schema}
    (hs₀ : db₀.schema? sid' = some s₀) (hd : s₀.Distinct) (hs : db.schema? sid' = some s) :
    s.Distinct := by
  obtain ⟨s₀', hs₀', htables⟩ := h.schema? hs
  rw [hs₀, Option.some.injEq] at hs₀'
  subst hs₀'
  refine ⟨?_, fun t ht => ?_⟩
  · rw [forall₂_map_eq htables fun _ _ h => h.1.id_eq]
    exact hd.tables
  · obtain ⟨t₀, ht₀, hrel⟩ := forall₂_exists_of_mem_right htables ht
    exact (hd.table t₀ ht₀).of_shrinks hrel.1.toShrinks

/-- Each mapping of the schema the snapshot finds is held for a mapping of `db₀`, by a
relationship of the table `db₀` finds at its holder. -/
theorem origin (h : db₀.TrimmedFrom sid target cut db) {s₀ s : Schema}
    (hs₀ : db₀.schema? sid = some s₀) (hd₀ : s₀.Distinct) (hs : db.schema? sid = some s)
    {r : Relationship} (hr : r ∈ s.relationships) {m : KeyMapping} (hm : m ∈ r.columns) :
    ∃ t₀, s₀.table? r.fkTableId = some t₀ ∧ ∃ r₀ ∈ t₀.relationships, r.head = r₀.head ∧
      ∃ m₀ ∈ r₀.columns, m.link = m₀.link := by
  obtain ⟨s₀', hs₀', htables⟩ := h.schema? hs
  rw [hs₀, Option.some.injEq] at hs₀'
  subst hs₀'
  rw [Schema.relationships] at hr
  obtain ⟨t, ht, hrt⟩ := List.mem_flatMap.1 hr
  obtain ⟨t₀, ht₀, htrim, -⟩ := forall₂_exists_of_mem_right htables ht
  obtain ⟨r₀, hr₀, htr⟩ := htrim.relationships.exists_of_mem hrt
  obtain ⟨m₀, hm₀, hlink⟩ := List.mem_map.1 (htr.2.subset (List.mem_map_of_mem hm))
  have hfk : r.fkTableId = t₀.id := htr.fkTableId_eq.trans ((hd₀.table t₀ ht₀).holder r₀ hr₀)
  exact ⟨t₀, hfk ▸ Schema.table?_of_mem hd₀.tables ht₀, r₀, hr₀, htr.1, m₀, hm₀, hlink.symm⟩

/-- Changing the table `tid` of schema `sid` keeps the state when the table it finds, with its
counterpart in `db₀`, stays trimmed and justified. -/
theorem updateTable (h : db₀.TrimmedFrom sid target cut db) {tid : Id} {f : Table → Table}
    (hf : ∀ t₀ t, db₀.FindsTable sid tid t₀ → db.FindsTable sid tid t →
      t₀.Trimmed cut t ∧ (some t₀.id ≠ target → t₀.Justified t) →
        t₀.Trimmed cut (f t) ∧ (some t₀.id ≠ target → t₀.Justified (f t))) :
    db₀.TrimmedFrom sid target cut (db.updateTable sid tid f) where
  tables := by
    refine ⟨h.tables.1, forall₂_updateFirst_right (fun _ _ h => by rw [h.1]) h.tables.2 ?_⟩
    intro s₀ s hs₀ hs hrel
    refine ⟨hrel.1, forall₂_updateFirst_right (fun _ _ h => by rw [h.1.id_eq]) hrel.2 ?_⟩
    intro t₀ t ht₀ ht htt
    exact hf t₀ t ⟨s₀, hs₀, ht₀⟩ ⟨s, hs, ht⟩ htt
  others s hsm hne := by
    rw [Database.updateTable, Database.schema?, find?_updateFirst_of_disjoint]
    · exact h.others s hsm hne
    · intro x hx
      have hx' : x.id = sid := by simpa using hx
      exact ⟨by simp [hx', Ne.symm hne], by simp [hx', Ne.symm hne]⟩

end Database.TrimmedFrom

theorem Database.HasColumn.of_shrinks {db db' : Database} (h : db.Tablewise Table.Shrinks db')
    {sid tid cid : Id} (hc : db'.HasColumn sid tid cid) : db.HasColumn sid tid cid := by
  obtain ⟨t', ht', hmem⟩ := hc
  obtain ⟨t, ht, hs⟩ := Database.Tablewise.findsTable (fun _ _ h => h.id_eq) h ht'
  exact ⟨t, ht, hs.columns.subset hmem⟩

namespace Relationship

theorem dropLink_trimOf (r : Relationship) (fk key : Id) : (r.dropLink fk key).TrimOf r := by
  unfold dropLink
  exact filter_trimOf r _

theorem eq_of_not_mem_dropLink {r : Relationship} {fk key : Id} {m : KeyMapping} (hm : m ∈ r.columns)
    (hl : m.link ∉ (r.dropLink fk key).columns.map KeyMapping.link) :
    m.fkColumnId = fk ∧ m.pkColumnId = key := by
  unfold dropLink at hl
  dsimp only at hl
  rw [@map_renumber _ _ (fun m n => { m with seqNo := n }) KeyMapping.link (fun _ _ => rfl)] at hl
  by_contra hne
  exact hl (List.mem_map_of_mem (List.mem_filter.2 ⟨hm, by simpa using not_and_or.1 hne⟩))

/-- `dropLink` takes every mapping from `fk` to `key`. -/
theorem not_mem_dropLink (r : Relationship) {fk key : Id} {m : KeyMapping} (hfk : m.fkColumnId = fk)
    (hkey : m.pkColumnId = key) : m.link ∉ (r.dropLink fk key).columns.map KeyMapping.link := by
  unfold dropLink
  dsimp only
  rw [@map_renumber _ _ (fun m n => { m with seqNo := n }) KeyMapping.link (fun _ _ => rfl)]
  intro hl
  obtain ⟨m', hm', hlink⟩ := List.mem_map.1 hl
  have hfk' : m'.fkColumnId = fk := (congrArg (·.2.1) hlink).trans hfk
  have hkey' : m'.pkColumnId = key := (congrArg (·.2.2) hlink).trans hkey
  simp [hfk', hkey'] at hm'

end Relationship

namespace Table

variable {cut : Relationship → KeyMapping → Prop}

theorem trimmed_dropLink {t : Table} {rid fk key : Id}
    (hcut : ∀ r, t.relationships.find? (·.id = rid) = some r → ∀ m ∈ r.columns,
      m.link ∉ (r.dropLink fk key).columns.map KeyMapping.link → cut r m) :
    t.Trimmed cut (t.dropLink rid fk key) :=
  trimmed_filter_updateFirst (fun r => r.dropLink_trimOf fk key) hcut

theorem not_holds_dropLink {t : Table} (hnd : (t.relationships.map (·.id)).Nodup) {rid fk key : Id}
    {r₀ : Relationship} (hr₀ : r₀.id = rid) {m : KeyMapping} (hfk : m.fkColumnId = fk)
    (hkey : m.pkColumnId = key) : ¬(t.dropLink rid fk key).Holds r₀ m :=
  not_holds_filter_updateFirst hnd (fun r => r.dropLink_trimOf fk key) hr₀
    fun r => r.not_mem_dropLink hfk hkey

theorem eq_of_not_mem_detachColumn {t : Table} {c c' : Id} (hc : c' ∈ t.columns.map (·.id))
    (hc' : c' ∉ (t.detachColumn c).1.columns.map (·.id)) : c' = c := by
  rw [detachColumn_columnIds] at hc'
  obtain ⟨col, hcol, rfl⟩ := List.mem_map.1 hc
  rcases mem_eraseP_of_mem hcol with h | h
  · exact absurd (List.mem_map_of_mem h) hc'
  · simpa using List.find?_some h

/-- Detaching columns one after the other takes only those columns. -/
theorem mem_foldl_detachColumn {c : Id} : ∀ {cs : List Id} {t : Table},
    c ∈ t.columns.map (·.id) → c ∉ cs →
      c ∈ (cs.foldl (fun t c => (t.detachColumn c).1) t).columns.map (·.id)
  | [], _, hc, _ => hc
  | c' :: cs, t, hc, hnot => by
    rw [List.foldl_cons]
    refine mem_foldl_detachColumn ?_ fun h => hnot (List.mem_cons_of_mem _ h)
    by_contra h
    exact hnot (List.mem_cons.2 (.inl (eq_of_not_mem_detachColumn hc h)))

end Table

namespace EditM

variable {sid : Id} {target : Option Id} {cut : Relationship → KeyMapping → Prop}

/-- Dropping a mapping of a table found in `db₀`, to be cut there, keeps the state: the holder is
trimmed by it, and when the holder column goes it is the holder column of that mapping, which
nothing maps any more. Then that column is gone. -/
theorem dropMapping_trimmedFrom {db₀ : Database} {s₀ : Schema} (hs₀ : db₀.schema? sid = some s₀)
    (hd₀ : s₀.Distinct) (hcut : CutStable cut) {hid rid fk key : Id} {t₀ : Table}
    (ht₀ : s₀.table? hid = some t₀) {r₀ : Relationship} (hr₀ : r₀ ∈ t₀.relationships)
    (hrid : r₀.id = rid) {m₀ : KeyMapping} (hm₀ : m₀ ∈ r₀.columns) (hfk : m₀.fkColumnId = fk)
    (hkey : m₀.pkColumnId = key)
    (hcutr : ∀ m : KeyMapping, m.fkColumnId = fk → m.pkColumnId = key → cut r₀ m)
    {st st' : Session} {b : Bool × Bool} (hinv : db₀.TrimmedFrom sid target cut st.db)
    (h : (dropMapping sid hid rid fk key).run st = .ok b st') :
    db₀.TrimmedFrom sid target cut st'.db ∧ (b.2 = true → ¬st'.db.HasColumn sid hid fk) := by
  unfold dropMapping at h
  obtain ⟨holder, st₁, h₁, h₂⟩ := run_bind_ok h
  obtain ⟨rfl, hfound⟩ := table_run h₁
  obtain ⟨t₀', ht₀', htrim, hjust⟩ := hinv.findsTable hfound
  obtain rfl := ht₀'.unique ⟨s₀, hs₀, ht₀⟩
  have hdt₀ : t₀'.Distinct := hd₀.table t₀' (Schema.mem_of_table? ht₀).1
  have hdh : holder.Distinct := hdt₀.of_shrinks htrim.toShrinks
  have hhid : holder.id = hid := Database.FindsTable.id_eq hfound
  have hcutr' : ∀ r, holder.relationships.find? (·.id = rid) = some r → ∀ m ∈ r.columns,
      m.link ∉ (r.dropLink fk key).columns.map KeyMapping.link → cut r m := by
    intro r hr m hm hl
    obtain ⟨r₀', hr₀', htr⟩ := htrim.relationships.exists_of_mem (List.mem_of_find?_eq_some hr)
    have hrid' : r.id = rid := by simpa using List.find?_some hr
    obtain rfl : r₀' = r₀ := List.inj_on_of_nodup_map hdt₀.relationships hr₀' hr₀
      (htr.id_eq.symm.trans (hrid'.trans hrid.symm))
    obtain ⟨hfk', hkey'⟩ := Relationship.eq_of_not_mem_dropLink hm hl
    exact hcut r₀' r m m htr.1 rfl (hcutr m hfk' hkey')
  have hX : holder.Trimmed cut (holder.dropLink rid fk key) := Table.trimmed_dropLink hcutr'
  have hgone : ¬(holder.dropLink rid fk key).Holds r₀ m₀ :=
    Table.not_holds_dropLink hdh.relationships hrid hfk hkey
  dsimp only at h₂
  split at h₂
  · -- the holder column is still mapped: the stripped holder is put back
    obtain ⟨u, st₂, h₃, h₄⟩ := run_bind_ok h₂
    obtain ⟨rfl, rfl⟩ := pure_run h₄
    rw [(modifyTable_run h₃).1]
    refine ⟨hinv.updateTable fun t₀'' t ht₀'' ht _ => ?_, fun h => absurd h Bool.false_ne_true⟩
    obtain rfl := ht₀''.unique ⟨s₀, hs₀, ht₀⟩
    obtain rfl := ht.unique hfound
    refine ⟨htrim.trans hcut hX, fun hne => (hjust hne).step hX.toShrinks
      (fun _ => ⟨r₀, hr₀, m₀, hm₀, hgone⟩) fun c hc hc' => absurd hc hc'⟩
  · -- no relationship maps it any more: it is detached
    next hfree =>
    obtain ⟨u, st₂, h₃, h₄⟩ := run_bind_ok h₂
    have hst₂ := (modifyTable_run h₃).1
    have hdb : st'.db = st₂.db := by
      split at h₄
      · obtain ⟨v, st₃, h₅, h₆⟩ := run_bind_ok h₄
        obtain ⟨-, rfl⟩ := pure_run h₆
        exact emit_run h₅
      · obtain ⟨-, rfl⟩ := pure_run h₄
        rfl
    have hY : (holder.dropLink rid fk key).Trimmed cut
        ((holder.dropLink rid fk key).detachColumn fk).1 :=
      @Table.Trimmed.of_unmapped cut (· = fk) _ _ (Table.trimmed_detachColumn _ fk) fun r hr _ hc =>
        hc ▸ Bool.eq_false_iff.2 fun hmaps => hfree (List.any_eq_true.2 ⟨r, hr, hmaps⟩)
    have hYid : ((holder.dropLink rid fk key).detachColumn fk).1.id = hid :=
      hY.id_eq.trans (hX.id_eq.trans hhid)
    rw [hdb, hst₂]
    refine ⟨hinv.updateTable fun t₀'' t ht₀'' ht _ => ?_, fun _ => ?_⟩
    · obtain rfl := ht₀''.unique ⟨s₀, hs₀, ht₀⟩
      obtain rfl := Database.FindsTable.unique hfound ht
      refine ⟨htrim.trans hcut (hX.trans hcut hY), fun hne => (hjust hne).step
        (hX.toShrinks.trans hY.toShrinks) (fun _ => ⟨r₀, hr₀, m₀, hm₀, fun hh => hgone
          (hY.toShrinks.holds hh)⟩) fun c hc hc' => ?_⟩
      -- the only column detached is the holder column, which no relationship maps any more
      obtain rfl := @Table.eq_of_not_mem_detachColumn (holder.dropLink rid fk key) fk c hc hc'
      refine ⟨⟨r₀, hr₀, m₀, hm₀, hfk, fun hh => hgone (hY.toShrinks.holds hh)⟩, fun r' hr' => ?_⟩
      by_contra hmaps
      obtain ⟨r, hr, hmaps'⟩ := hY.toShrinks.mapsFkColumn hr' (Bool.not_eq_false _ ▸ hmaps)
      exact hfree (List.any_eq_true.2 ⟨r, hr, hmaps'⟩)
    · rintro ⟨t, ht, hmem⟩
      obtain ⟨_, -, rfl⟩ := (Database.findsTable_updateTable fun _ _ => hYid).1 ht
      exact @Table.not_mem_detachColumn (holder.dropLink rid fk key) hdh.columns fk hmem

theorem shrinks_dropMapping (sid hid rid fk key : Id) :
    Keeps (Database.Tablewise Table.Shrinks) (dropMapping sid hid rid fk key) := by
  have hX : ∀ t : Table, t.Shrinks (t.dropLink rid fk key) := fun t =>
    (@Table.trimmed_dropLink (fun _ _ => True) t rid fk key fun _ _ _ _ _ => trivial).toShrinks
  refine keeps_dropMapping_of (fun t => keepsFrom_putTable (hX t)) fun t => ?_
  exact keepsFrom_putTable ((hX t).trans (Table.shrinks_detachColumn _ fk))

theorem shrinks_cascadeKeyRemoval (sid : Id) (seeds : List (Id × Id)) (survive : Bool) :
    Keeps (Database.Tablewise Table.Shrinks) (cascadeKeyRemoval sid seeds survive) :=
  keeps_cascadeKeyRemoval_of (shrinks_dropMapping sid) seeds survive

end EditM

/-! ## The cascade -/

/-- Mappings to one of the columns `cols`. -/
def refCut (cols : List (Id × Id)) (r : Relationship) (m : KeyMapping) : Prop :=
  (r.pkTableId, m.pkColumnId) ∈ cols

/-- What a cascade from `seeds` cuts directly: mappings to a seed, to a surviving seed only
through an identifying relationship. -/
def seedCut (seeds : List (Id × Id)) (survive : Bool) (r : Relationship) (m : KeyMapping) : Prop :=
  refCut seeds r m ∧ (survive = false ∨ r.isIdentifying = true)

/-- The items a cascade may work on: a seed as it was started, or a column in `gone`, which is
followed as a column that does not survive. -/
def CascadeItem (seeds : List (Id × Id)) (survive : Bool) (gone : List (Id × Id))
    (item : Id × Id × Bool) : Prop :=
  ((item.1, item.2.1) ∈ seeds ∧ item.2.2 = survive) ∨ (item.2.2 = false ∧ (item.1, item.2.1) ∈ gone)

theorem Relationship.pkTableId_eq_of_head {r' r : Relationship} (h : r'.head = r.head) :
    r'.pkTableId = r.pkTableId := by
  have := congrArg Relationship.pkTableId h
  exact this

theorem Relationship.fkTableId_eq_of_head {r' r : Relationship} (h : r'.head = r.head) :
    r'.fkTableId = r.fkTableId := by
  have := congrArg Relationship.fkTableId h
  exact this

theorem Relationship.isIdentifying_eq_of_head {r' r : Relationship} (h : r'.head = r.head) :
    r'.isIdentifying = r.isIdentifying := by
  have hkind : r'.kind = r.kind := by
    have := congrArg Relationship.kind h
    exact this
  unfold Relationship.isIdentifying
  rw [hkind]

section Cascade

variable {seeds : List (Id × Id)} {survive : Bool} {gone gone' : List (Id × Id)}

theorem refCut_stable (cols : List (Id × Id)) : CutStable (refCut cols) := by
  intro r r' m m' hhead hlink h
  have hkey : m'.pkColumnId = m.pkColumnId := congrArg (·.2.2) hlink
  unfold refCut
  rw [Relationship.pkTableId_eq_of_head hhead, hkey]
  exact h

theorem seedCut_stable : CutStable (seedCut seeds survive) := by
  intro r r' m m' hhead hlink h
  refine ⟨refCut_stable seeds r r' m m' hhead hlink h.1, ?_⟩
  rw [Relationship.isIdentifying_eq_of_head hhead]
  exact h.2

theorem CutStable.or {cut cut' : Relationship → KeyMapping → Prop} (h : CutStable cut)
    (h' : CutStable cut') : CutStable fun r m => cut r m ∨ cut' r m :=
  fun r r' m m' hh hl => Or.imp (h r r' m m' hh hl) (h' r r' m m' hh hl)

theorem CascadeItem.mono (hg : gone ⊆ gone') {item : Id × Id × Bool}
    (h : CascadeItem seeds survive gone item) : CascadeItem seeds survive gone' item :=
  h.imp_right fun hi => ⟨hi.1, hg hi.2⟩

end Cascade

/-- From `db₀`, the removal has trimmed `db` by `cut` and by the columns in `gone`, which are
gone. -/
structure Database.Removing (sid : Id) (target : Option Id) (cut : Relationship → KeyMapping → Prop)
    (gone : List (Id × Id)) (db₀ db : Database) : Prop where
  trimmed : db₀.TrimmedFrom sid target (fun r m => cut r m ∨ refCut gone r m) db
  gone : ∀ x ∈ gone, ¬db.HasColumn sid x.1 x.2

namespace Database.Removing

variable {sid : Id} {target : Option Id} {cut : Relationship → KeyMapping → Prop}
  {gone : List (Id × Id)} {db₀ db : Database}

theorem refl (db₀ : Database) (hs : (db₀.schemas.map (·.id)).Nodup) :
    db₀.Removing sid target cut [] db₀ :=
  ⟨TrimmedFrom.refl db₀ hs, fun _ hx => absurd hx List.not_mem_nil⟩

theorem mono {cut' : Relationship → KeyMapping → Prop} (hcut : ∀ r m, cut r m → cut' r m)
    (h : db₀.Removing sid target cut gone db) : db₀.Removing sid target cut' gone db :=
  ⟨h.trimmed.mono fun r m => Or.imp_left (hcut r m), h.gone⟩

theorem absorb {cols : List (Id × Id)}
    (h : db₀.Removing sid target (fun r m => cut r m ∨ refCut cols r m) gone db)
    (hcols : ∀ x ∈ cols, ¬db.HasColumn sid x.1 x.2) : db₀.Removing sid target cut (gone ++ cols) db where
  trimmed := h.trimmed.mono fun r m hc => by
    unfold refCut at hc ⊢
    rw [List.mem_append]
    tauto
  gone x hx := (List.mem_append.1 hx).elim (h.gone x) (hcols x)

/-- A column found gone joins `gone`. -/
theorem add (h : db₀.Removing sid target cut gone db) {x : Id × Id}
    (hx : ¬db.HasColumn sid x.1 x.2) : db₀.Removing sid target cut (gone ++ [x]) db :=
  absorb (h.mono fun _ _ => Or.inl) fun _ hy => List.mem_singleton.1 hy ▸ hx

variable {s₀ : Schema} {seeds : List (Id × Id)} {survive : Bool}

/-- Each dependent a round reads, for an item the cascade may work on, is a mapping of `db₀` on
the item's column, whose relationship the cascade may cut at that column. -/
theorem dependent (h : db₀.Removing sid target (fun r m => cut r m ∨ seedCut seeds survive r m) gone db)
    (hs₀ : db₀.schema? sid = some s₀) (hd₀ : s₀.Distinct) {s : Schema} (hs : db.schema? sid = some s)
    {p key : Id} {sv : Bool} (hitem : CascadeItem seeds survive gone (p, key, sv)) {hid rid fk : Id}
    (hdep : (hid, rid, fk) ∈ ((s.referencing p).filter fun r => !sv || r.isIdentifying).flatMap
      fun r => (r.columns.filter (·.pkColumnId = key)).map fun m => (r.fkTableId, r.id, m.fkColumnId)) :
    ∃ t₀, s₀.table? hid = some t₀ ∧ ∃ r₀ ∈ t₀.relationships, r₀.id = rid ∧
      (∃ m₀ ∈ r₀.columns, m₀.fkColumnId = fk ∧ m₀.pkColumnId = key) ∧
        ∀ m : KeyMapping, m.pkColumnId = key → seedCut seeds survive r₀ m ∨ refCut gone r₀ m := by
  simp only [Schema.referencing, List.mem_flatMap, List.mem_filter, List.mem_map] at hdep
  obtain ⟨r, ⟨⟨hr, hp⟩, hsv⟩, m, ⟨hm, hkey⟩, heq⟩ := hdep
  simp only [Prod.mk.injEq] at heq
  obtain ⟨rfl, rfl, rfl⟩ := heq
  obtain ⟨t₀, ht₀, r₀, hr₀, hhead, m₀, hm₀, hlink⟩ := h.trimmed.origin hs₀ hd₀ hs hr hm
  have hpk : r₀.pkTableId = p := by
    rw [← Relationship.pkTableId_eq_of_head hhead]
    simpa using hp
  have hrid : r₀.id = r.id := (Relationship.id_eq_of_head hhead).symm
  have hkey' : m.pkColumnId = key := by simpa using hkey
  refine ⟨t₀, ht₀, r₀, hr₀, hrid, ⟨m₀, hm₀, (congrArg (·.2.1) hlink).symm,
    (congrArg (·.2.2) hlink).symm.trans hkey'⟩, fun m' hm' => ?_⟩
  unfold seedCut refCut
  rw [hpk, hm']
  rcases hitem with ⟨hseed, rfl⟩ | ⟨-, hgone⟩
  · refine .inl ⟨hseed, ?_⟩
    rw [← Relationship.isIdentifying_eq_of_head hhead]
    cases sv
    · exact .inl rfl
    · exact .inr (by simpa using hsv)
  · exact .inr hgone

end Database.Removing

namespace EditM

open Database

variable {sid : Id} {target : Option Id} {cut : Relationship → KeyMapping → Prop}
  {seeds : List (Id × Id)} {survive : Bool} {db₀ : Database} {s₀ : Schema}

/-- Dropping a mapping of `db₀` that is to be cut keeps the state; when the holder column goes,
it is gone. -/
theorem dropMapping_removing (hs₀ : db₀.schema? sid = some s₀) (hd₀ : s₀.Distinct)
    (hcut : CutStable cut) {gone : List (Id × Id)} {hid rid fk key : Id} {t₀ : Table}
    (ht₀ : s₀.table? hid = some t₀) {r₀ : Relationship} (hr₀ : r₀ ∈ t₀.relationships)
    (hrid : r₀.id = rid) (hm₀ : ∃ m₀ ∈ r₀.columns, m₀.fkColumnId = fk ∧ m₀.pkColumnId = key)
    (hcutr : ∀ m : KeyMapping, m.pkColumnId = key → cut r₀ m ∨ refCut gone r₀ m)
    {st st' : Session} {b : Bool × Bool} (h : db₀.Removing sid target cut gone st.db)
    (hrun : (dropMapping sid hid rid fk key).run st = .ok b st') :
    db₀.Removing sid target cut gone st'.db ∧ (b.2 = true → ¬st'.db.HasColumn sid hid fk) := by
  obtain ⟨m₀, hm₀, hfk, hkey⟩ := hm₀
  obtain ⟨htrim, hgone⟩ := dropMapping_trimmedFrom hs₀ hd₀ (hcut.or (refCut_stable gone)) ht₀ hr₀
    hrid hm₀ hfk hkey (fun m _ hk => hcutr m hk) h.trimmed hrun
  have hshrinks := shrinks_dropMapping sid hid rid fk key st b st' hrun
  exact ⟨⟨htrim, fun x hx hc => h.gone x hx (hc.of_shrinks hshrinks)⟩, hgone⟩

/-- The worklist keeps the state, by induction on the fuel: a round drops mappings the cascade
may cut, and queues only holder columns that are gone. -/
theorem removalLoop_removing (hs₀ : db₀.schema? sid = some s₀) (hd₀ : s₀.Distinct)
    (hcut : CutStable cut) :
    ∀ (fuel : Nat) (work : List (Id × Id × Bool)) (visited : List (Id × Id)) (count : Nat)
      (st : Session) (n : Nat) (st' : Session),
      (∃ gone, db₀.Removing sid target (fun r m => cut r m ∨ seedCut seeds survive r m) gone st.db ∧
        ∀ x ∈ work, CascadeItem seeds survive gone x) →
      (removalLoop sid fuel work visited count).run st = .ok n st' →
      ∃ gone, db₀.Removing sid target (fun r m => cut r m ∨ seedCut seeds survive r m) gone st'.db
  | 0, _, _, _, _, _, _, hpre, hrun => by
    obtain ⟨gone, h, -⟩ := hpre
    rw [removalLoop] at hrun
    obtain ⟨-, rfl⟩ := pure_run hrun
    exact ⟨gone, h⟩
  | _ + 1, [], _, _, _, _, _, hpre, hrun => by
    obtain ⟨gone, h, -⟩ := hpre
    rw [removalLoop] at hrun
    obtain ⟨-, rfl⟩ := pure_run hrun
    exact ⟨gone, h⟩
  | fuel + 1, (p, key, sv) :: rest, visited, count, st, n, st', hpre, hrun => by
    obtain ⟨gone, h, hwork⟩ := hpre
    rw [removalLoop] at hrun
    obtain ⟨s, st₁, h₁, h₂⟩ := run_bind_ok hrun
    obtain ⟨rfl, hs⟩ := schema_run h₁
    obtain ⟨acc, st₂, h₃, h₄⟩ := run_bind_ok h₂
    -- through the round, `gone` only grows and every queued item is one the cascade may work on
    have hround := foldlM_run_mem
      (fun (b b' : List (Id × Id × Bool) × List (Id × Id) × Nat) db db' =>
        (∃ g, gone ⊆ g ∧ db₀.Removing sid target (fun r m => cut r m ∨ seedCut seeds survive r m) g db ∧
          ∀ x ∈ b.1, CascadeItem seeds survive g x) →
        ∃ g, gone ⊆ g ∧ db₀.Removing sid target (fun r m => cut r m ∨ seedCut seeds survive r m) g db' ∧
          ∀ x ∈ b'.1, CascadeItem seeds survive g x)
      (fun _ _ _ => True) (fun _ _ h => h) (fun _ _ _ _ _ _ h₁ h₂ h => h₂ (h₁ h))
      (fun _ _ _ _ _ h _ => h) _ ?_ _ _ _ _ h₃ |>.1
    · obtain ⟨rest', visited', count'⟩ := acc
      obtain ⟨g, -, hg, hitems⟩ := hround ⟨gone, List.Subset.refl _, h,
        fun x hx => hwork x (List.mem_cons_of_mem _ hx)⟩
      exact removalLoop_removing hs₀ hd₀ hcut fuel rest' visited' count' st₂ n st' ⟨g, hg, hitems⟩ h₄
    · rintro ⟨hid, rid, fk⟩ ha ⟨rest₀, visited₀, count₀⟩ st₃ b' st₄ hstep
      obtain ⟨t₀, ht₀, r₀, hr₀, hrid, hm₀, hcutr⟩ :=
        h.dependent hs₀ hd₀ hs (hwork _ List.mem_cons_self) ha
      refine ⟨fun hpre => ?_, trivial⟩
      obtain ⟨g, hsub, hg, hitems⟩ := hpre
      dsimp only at hstep
      obtain ⟨⟨removed, follow⟩, st₅, hdrop, hrest⟩ := run_bind_ok hstep
      obtain ⟨hg', hgone⟩ := dropMapping_removing hs₀ hd₀ (hcut.or seedCut_stable) ht₀ hr₀ hrid
        hm₀ (fun m hk => (hcutr m hk).imp Or.inr fun hm => hsub hm) hg hdrop
      split at hrest
      · obtain ⟨rfl, rfl⟩ := pure_run hrest
        exact ⟨g, hsub, hg', hitems⟩
      · next hnew =>
        obtain ⟨rfl, rfl⟩ := pure_run hrest
        simp only [Bool.or_eq_true, Bool.not_eq_eq_eq_not, Bool.not_true, not_or] at hnew
        have hfollow : follow = true := by simpa using hnew.1
        refine ⟨g ++ [(hid, fk)], List.Subset.trans hsub (List.subset_append_left _ _),
          hg'.add (hgone hfollow), fun x hx => ?_⟩
        rcases List.mem_append.1 hx with hx | hx
        · exact (hitems x hx).mono (List.subset_append_left _ _)
        · rw [List.mem_singleton.1 hx]
          exact .inr ⟨rfl, List.mem_append_right _ (List.mem_singleton_self _)⟩

/-- The whole cascade from `seeds` keeps the state, adding its seeds' cut. -/
theorem cascadeKeyRemoval_removing (hs₀ : db₀.schema? sid = some s₀) (hd₀ : s₀.Distinct)
    (hcut : CutStable cut) {gone : List (Id × Id)} {st st' : Session} {n : Nat}
    (h : db₀.Removing sid target cut gone st.db)
    (hrun : (cascadeKeyRemoval sid seeds survive).run st = .ok n st') :
    ∃ gone', db₀.Removing sid target (fun r m => cut r m ∨ seedCut seeds survive r m) gone' st'.db := by
  unfold cascadeKeyRemoval at hrun
  obtain ⟨s, st₁, h₁, h₂⟩ := run_bind_ok hrun
  obtain ⟨rfl, -⟩ := schema_run h₁
  obtain ⟨count, st₂, h₃, h₄⟩ := run_bind_ok h₂
  obtain ⟨gone', hg⟩ := removalLoop_removing hs₀ hd₀ hcut _ _ _ _ _ _ _
    ⟨gone, h.mono fun _ _ => Or.inl, fun x hx => by
      obtain ⟨⟨t, c⟩, hseed, rfl⟩ := List.mem_map.1 hx
      exact .inl ⟨hseed, rfl⟩⟩ h₃
  have hdb : st'.db = st₂.db := by
    split at h₄
    · obtain ⟨u, st₃, h₅, h₆⟩ := run_bind_ok h₄
      obtain ⟨-, rfl⟩ := pure_run h₆
      exact emit_run h₅
    · obtain ⟨-, rfl⟩ := pure_run h₄
      rfl
  rw [hdb]
  exact ⟨gone', hg⟩

/-- Changing one table keeps the state when the change trims the table it finds, and keeps it
justified when it is not the target. -/
theorem modifyTable_removing (hcut : CutStable cut) {gone : List (Id × Id)} {tid : Id}
    {f : Table → Table} {st st' : Session} {u : Unit}
    (hf : ∀ t₀ t, db₀.FindsTable sid tid t₀ → st.db.FindsTable sid tid t →
      t₀.Trimmed (fun r m => cut r m ∨ refCut gone r m) t →
        t.Trimmed (fun r m => cut r m ∨ refCut gone r m) (f t) ∧
          (some t₀.id ≠ target → t₀.Justified t → t₀.Justified (f t)))
    (h : db₀.Removing sid target cut gone st.db)
    (hrun : (modifyTable sid tid f).run st = .ok u st') : db₀.Removing sid target cut gone st'.db := by
  obtain ⟨hdb, s, t, hs, ht⟩ := modifyTable_run hrun
  obtain ⟨t₀, ht₀, htrim, hjust⟩ := h.trimmed.findsTable ⟨s, hs, ht⟩
  obtain ⟨hft, hfj⟩ := hf t₀ t ht₀ ⟨s, hs, ht⟩ htrim
  have hshrinks : st.db.Tablewise Table.Shrinks (st.db.updateTable sid tid f) :=
    tablewise_updateTable hs ht hft.toShrinks
  rw [hdb]
  refine ⟨h.trimmed.updateTable fun t₀' t' ht₀' ht' _ => ?_,
    fun x hx hc => h.gone x hx (hc.of_shrinks hshrinks)⟩
  obtain rfl := ht₀'.unique ht₀
  obtain rfl := ht'.unique ⟨s, hs, ht⟩
  exact ⟨htrim.trans (hcut.or (refCut_stable gone)) hft, fun hne => hfj hne (hjust hne)⟩

/-- Releasing holder columns, each the holder column of a mapping of `db₀` the holder no longer
holds, keeps the state: the columns nothing maps are gone with what the cascade took. -/
theorem releaseFkColumns_removing (hs₀ : db₀.schema? sid = some s₀) (hd₀ : s₀.Distinct)
    (hcut : CutStable cut) {gone : List (Id × Id)} {hid : Id} {fks : List Id} {t₀ : Table}
    (ht₀ : db₀.FindsTable sid hid t₀) {st st' : Session} {u : Unit}
    (hlost : ∀ t, st.db.FindsTable sid hid t → ∀ c ∈ fks,
      ∃ r₀ ∈ t₀.relationships, ∃ m₀ ∈ r₀.columns, m₀.fkColumnId = c ∧ ¬t.Holds r₀ m₀)
    (h : db₀.Removing sid target cut gone st.db)
    (hrun : (releaseFkColumns sid hid fks).run st = .ok u st') :
    ∃ gone', db₀.Removing sid target cut gone' st'.db := by
  have hrelease := hrun
  unfold releaseFkColumns at hrun
  obtain ⟨holder, st₁, h₁, h₂⟩ := run_bind_ok hrun
  obtain ⟨rfl, hholder⟩ := table_run h₁
  dsimp only at h₂
  split at h₂
  · next hne =>
    obtain ⟨n, st₂, h₃, h₄⟩ := run_bind_ok h₂
    obtain ⟨gone', hg⟩ := cascadeKeyRemoval_removing hs₀ hd₀ hcut h h₃
    have hshrinks := shrinks_cascadeKeyRemoval sid _ false _ n st₂ h₃
    -- the orphaned columns are those of `fks` the holder read does not map
    have horph : ∀ c ∈ fks.filter (fun c => !holder.relationships.any (·.mapsFkColumn c)),
        c ∈ fks ∧ ∀ r ∈ holder.relationships, r.mapsFkColumn c = false := by
      intro c hc
      simp only [List.mem_filter, Bool.not_eq_eq_eq_not, Bool.not_true, List.any_eq_false] at hc
      exact ⟨hc.1, fun r hr => by simpa using hc.2 r hr⟩
    have hfree : ∀ t, st₂.db.FindsTable sid hid t → ∀ r ∈ t.relationships, ∀ c,
        c ∈ fks.filter (fun c => !holder.relationships.any (·.mapsFkColumn c)) →
          r.mapsFkColumn c = false := by
      intro t ht r hr c hc
      obtain ⟨t₁, ht₁, hshr⟩ := Database.Tablewise.findsTable (fun _ _ h => h.id_eq) hshrinks ht
      obtain rfl := Database.FindsTable.unique ht₁ hholder
      cases hmaps : r.mapsFkColumn c
      · rfl
      · obtain ⟨r₁, hr₁, hmaps₁⟩ := hshr.mapsFkColumn hr hmaps
        rw [(horph c hc).2 r₁ hr₁] at hmaps₁
        exact absurd hmaps₁ Bool.false_ne_true
    have hdetach := modifyTable_removing (hcut.or (refCut_stable _))
      (fun t₀' t ht₀' ht htrim => ⟨(Table.trimmed_foldl_detachColumn _ t).of_unmapped
        (hfree t ht), fun _ hjust => ?_⟩) (hg.mono fun _ _ => Or.imp_right And.left) h₄
    · refine ⟨gone' ++ (fks.filter fun c => !holder.relationships.any (·.mapsFkColumn c)).map
        (hid, ·), hdetach.absorb fun x hx => ?_⟩
      obtain ⟨c, hc, rfl⟩ := List.mem_map.1 hx
      rintro ⟨t', ht', hmem⟩
      have hd := (h.trimmed.distinct hs₀ hd₀ hholder.choose_spec.1).table holder
        (Schema.mem_of_table? hholder.choose_spec.2).1
      exact releaseFkColumns_run hrelease hholder hd.columns (horph c hc).1 (horph c hc).2 t' ht' hmem
    · -- the holder lost a mapping on each orphaned column, and nothing maps one any more
      obtain rfl := ht₀'.unique ht₀
      have hsh : t.Shrinks ((fks.filter fun c => !holder.relationships.any (·.mapsFkColumn c)).foldl
          (fun t c => (t.detachColumn c).1) t) :=
        (Table.trimmed_foldl_detachColumn _ t).toShrinks
      obtain ⟨t₁, ht₁, hshr⟩ := Database.Tablewise.findsTable (fun _ _ h => h.id_eq) hshrinks ht
      obtain rfl := Database.FindsTable.unique ht₁ hholder
      have hgone : ∀ c ∈ fks.filter (fun c => !t₁.relationships.any (·.mapsFkColumn c)),
          ∃ r₀ ∈ t₀'.relationships, ∃ m₀ ∈ r₀.columns, m₀.fkColumnId = c ∧
            ¬((fks.filter fun c => !t₁.relationships.any (·.mapsFkColumn c)).foldl
              (fun t c => (t.detachColumn c).1) t).Holds r₀ m₀ := by
        intro c hc
        obtain ⟨r₀, hr₀, m₀, hm₀, hfk, hnot⟩ := hlost t₁ hholder c (horph c hc).1
        exact ⟨r₀, hr₀, m₀, hm₀, hfk, fun hh => hnot (hshr.holds (hsh.holds hh))⟩
      refine hjust.step hsh (fun _ => ?_) fun c hc hc' => ?_
      · simp only [Bool.not_eq_true', List.isEmpty_eq_false_iff] at hne
        obtain ⟨c, hc⟩ := List.exists_mem_of_ne_nil _ hne
        obtain ⟨r₀, hr₀, m₀, hm₀, -, hnot⟩ := hgone c hc
        exact ⟨r₀, hr₀, m₀, hm₀, hnot⟩
      · have hc₀ : c ∈ fks.filter fun c => !t₁.relationships.any (·.mapsFkColumn c) := by
          by_contra hn
          exact hc' (Table.mem_foldl_detachColumn hc hn)
        refine ⟨hgone c hc₀, fun r' hr' => ?_⟩
        cases hmaps : r'.mapsFkColumn c
        · rfl
        · obtain ⟨r, hr, hmaps'⟩ := hsh.mapsFkColumn hr' hmaps
          rw [hfree t ht r hr c hc₀] at hmaps'
          exact absurd hmaps' Bool.false_ne_true
  · obtain ⟨-, rfl⟩ := pure_run h₂
    exact ⟨gone, h⟩

/-- Deleting a relationship of `db₀` whose mappings are to be cut keeps the state: its holder
loses it, and then the holder columns only it mapped. -/
theorem deleteRelationship_removing (hs₀ : db₀.schema? sid = some s₀) (hd₀ : s₀.Distinct)
    (hcut : CutStable cut) {gone : List (Id × Id)} {rid : Id}
    (hrel : ∀ t₀ ∈ s₀.tables, ∀ r₀ ∈ t₀.relationships, r₀.id = rid →
      r₀.columns ≠ [] ∧ ∀ m, cut r₀ m)
    {st st' : Session} {u : Unit} (h : db₀.Removing sid target cut gone st.db)
    (hrun : (deleteRelationship sid rid).run st = .ok u st') :
    ∃ gone', db₀.Removing sid target cut gone' st'.db := by
  unfold deleteRelationship at hrun
  obtain ⟨⟨holder, r⟩, st₁, h₁, h₂⟩ := run_bind_ok hrun
  have hst₁ : st.db = st₁.db := (keeps_relationship sid rid : Keeps Eq _) st _ st₁ h₁
  rw [hst₁] at h
  obtain ⟨t, st₂, h₃, h₄⟩ := run_bind_ok h₂
  obtain ⟨rfl, ht⟩ := table_run h₃
  split at h₄
  · obtain ⟨-, rfl⟩ := pure_run h₄
    exact ⟨gone, h⟩
  · next removed hfind =>
    obtain ⟨u₁, st₃, h₅, h₆⟩ := run_bind_ok h₄
    obtain ⟨u₂, st₄, h₇, h₈⟩ := run_bind_ok h₆
    obtain ⟨t₀, ht₀, htrim, -⟩ := h.trimmed.findsTable ht
    have hrid : removed.id = rid := by simpa using List.find?_some hfind
    obtain ⟨r₀, hr₀, htr⟩ :=
      htrim.relationships.exists_of_mem (List.mem_of_find?_eq_some hfind)
    have hrid₀ : r₀.id = rid := htr.id_eq.symm.trans hrid
    have ht₀mem : t₀ ∈ s₀.tables := by
      obtain ⟨s, hs, hts⟩ := ht₀
      rw [hs₀, Option.some.injEq] at hs
      subst hs
      exact (Schema.mem_of_table? hts).1
    obtain ⟨hne, hcut₀⟩ := hrel t₀ ht₀mem r₀ hr₀ hrid₀
    obtain ⟨m₀, hm₀⟩ := List.exists_mem_of_ne_nil _ hne
    have hdt : t.Distinct := by
      obtain ⟨s, hs, hts⟩ := ht
      exact (h.trimmed.distinct hs₀ hd₀ hs).table t (Schema.mem_of_table? hts).1
    have hnot : ∀ m, ¬({ t with relationships := t.relationships.eraseP (·.id = rid) } : Table).Holds
        r₀ m := hrid₀ ▸ Table.not_holds_eraseP hdt.relationships
    have herase : t.Trimmed (fun r m => cut r m ∨ refCut gone r m)
        { t with relationships := t.relationships.eraseP (·.id = rid) } :=
      Table.trimmed_eraseP fun r' hr' m hm => by
        rw [hfind, Option.some.injEq] at hr'
        subst hr'
        exact .inl (hcut r₀ removed m m htr.1 rfl (hcut₀ m))
    have h₃' := modifyTable_removing hcut (fun t₀' t' ht₀' ht' _ => by
      obtain rfl := ht₀'.unique ht₀
      obtain rfl := ht'.unique ht
      exact ⟨herase, fun _ hjust => hjust.step herase.toShrinks (fun _ => ⟨r₀, hr₀, m₀, hm₀, hnot m₀⟩)
        fun _ hc hc' => absurd hc hc'⟩) h h₅
    rw [← emit_run h₇] at h₃'
    refine releaseFkColumns_removing hs₀ hd₀ hcut ht₀ (fun t' ht' c hc => ?_) h₃' h₈
    rw [emit_run h₇, (modifyTable_run h₅).1] at ht'
    have hid : ∀ x : Table, x.id = holder.id →
        ({ t with relationships := t.relationships.eraseP (·.id = rid) } : Table).id = holder.id :=
      fun _ _ => @Database.FindsTable.id_eq st₂.db sid holder.id t ht
    obtain ⟨_, -, rfl⟩ := (Database.findsTable_updateTable hid).1 ht'
    obtain ⟨m, hm, rfl⟩ := List.mem_map.1 hc
    obtain ⟨m', hm', hlink⟩ := List.mem_map.1 (htr.2.subset (List.mem_map_of_mem hm))
    exact ⟨r₀, hr₀, m', hm', (congrArg (·.2.1) hlink), hnot m'⟩

end EditM

end SchemaDesign
