import SchemaDesign.Proofs.Edit.KeySteps

/-!
# Mapping columns into a relationship keeps sound keys

A relationship maps each provider column and each holder column once. The steps that add
mappings one after the other keep that when the relationship maps none of the columns still to
come (`Database.Unmapped`, carried through the loop by `KeepsFrom.forM`):

- creating a relationship maps the draft's mappings, whose columns the draft names once each;
- `completeIdentifying` maps every key column of the provider that the relationship does not map
  yet, each onto a holder column minted fresh, then puts the relationship's holder columns into
  the holder's key and propagates the new ones.

The key grows by at least one column there: the relationship has mappings (`Database.Filled`),
and the relationship found again after the loop is the one the loop grew, because only its holder
holds a relationship with its id (`Database.HeldAt`). Both facts survive the loop, which only
adds (`Database.Grows`).
-/

namespace SchemaDesign

/-! ## Snapshots that grow -/

/-- `db'` is `db` with columns, mappings or key columns added. -/
def Database.Grows (db db' : Database) : Prop :=
  ∃ New : Id → Id → KeyMapping → Prop, db.Tablewise (Table.GrowsBy New) db'

instance : IsPreorder Database Database.Grows where
  refl db := ⟨fun _ _ _ => False, Std.Refl.refl db⟩
  trans _ _ _ := by
    rintro ⟨New₁, h₁⟩ ⟨New₂, h₂⟩
    exact ⟨fun i j m => New₁ i j m ∨ New₂ i j m,
      IsTrans.trans _ _ _ (h₁.mono fun _ _ h => h.mono fun _ _ _ => .inl)
        (h₂.mono fun _ _ h => h.mono fun _ _ _ => .inr)⟩

/-- The relationship `rid` of the table `hid` found in schema `sid` maps none of the provider
columns `pks` and none of the holder columns `fks`. -/
def Database.Unmapped (sid hid rid : Id) (pks fks : List Id) (db : Database) : Prop :=
  ∀ t, db.FindsTable sid hid t → ∀ r, t.relationship? rid = some r →
    (∀ pk ∈ pks, r.mapsPkColumn pk = false) ∧ ∀ fk ∈ fks, r.mapsFkColumn fk = false

/-- Only the table `hid` holds a relationship `rid` in schema `sid`, and the tables of the schema
have distinct ids: looking the relationship up finds it in the table found at `hid`. -/
def Database.HeldAt (sid rid hid : Id) (db : Database) : Prop :=
  ∀ s, db.schema? sid = some s → (s.tables.map (·.id)).Nodup ∧
    ∀ t ∈ s.tables, ∀ r ∈ t.relationships, r.id = rid → t.id = hid

/-- The relationship `rid` of the table `hid` found in schema `sid` has mappings. -/
def Database.Filled (sid hid rid : Id) (db : Database) : Prop :=
  ∀ t, db.FindsTable sid hid t → ∀ r, t.relationship? rid = some r → r.columns ≠ []

/-- The key columns of a table with sound keys are distinct. -/
theorem Table.KeysSound.keyColumns_nodup {t : Table} (h : t.KeysSound) : t.keyColumns.Nodup := by
  unfold Table.keyColumns
  cases hpk : t.primaryKey? with
  | none => exact List.nodup_nil
  | some pk =>
    exact (h.constraints.wellFormed pk (List.mem_of_find?_eq_some hpk)).columnIds_nodup

namespace Database

variable {sid hid rid : Id} {db db' : Database}

theorem KeysSound.findsTable (h : db.KeysSound) {tid : Id} {t : Table}
    (ht : db.FindsTable sid tid t) : t.KeysSound := by
  obtain ⟨s, hs, ht⟩ := ht
  exact h.table hs ht

theorem Unmapped.tail {pk : Id} {pks fks : List Id} (h : db.Unmapped sid hid rid (pk :: pks) fks) :
    db.Unmapped sid hid rid pks fks := fun t ht r hr =>
  ⟨fun p hp => (h t ht r hr).1 p (List.mem_cons_of_mem _ hp), (h t ht r hr).2⟩

/-- Growing keeps columns unmapped when no mapping added maps one of them. -/
theorem Unmapped.of_growsBy {New : Id → Id → KeyMapping → Prop} {pks fks : List Id}
    (h : db.Unmapped sid hid rid pks fks) (hg : db.Tablewise (Table.GrowsBy New) db')
    (hnew : ∀ m, New hid rid m → m.pkColumnId ∉ pks ∧ m.fkColumnId ∉ fks) :
    db'.Unmapped sid hid rid pks fks := by
  intro t' ht' r' hr'
  obtain ⟨t, r, ht, -, hr, -, hnm⟩ := hg.growsBy_lookup ht' hr'
  have hold := h t ht r hr
  simp only [Relationship.mapsPkColumn, Relationship.mapsFkColumn, List.any_eq_false,
    decide_eq_true_eq] at hold ⊢
  -- a mapping of the grown relationship was there before, or is new
  refine ⟨fun pk hpk m hm hmpk => ?_, fun fk hfk m hm hmfk => ?_⟩
  · by_cases hmr : m ∈ r.columns
    · exact hold.1 pk hpk m hmr hmpk
    · exact (hnew m (hnm m hm hmr)).1 (hmpk ▸ hpk)
  · by_cases hmr : m ∈ r.columns
    · exact hold.2 fk hfk m hmr hmfk
    · exact (hnew m (hnm m hm hmr)).2 (hmfk ▸ hfk)

theorem HeldAt.findsTable (h : db.HeldAt sid rid hid) {s : Schema} (hs : db.schema? sid = some s)
    {t : Table} {r : Relationship} (hr : s.relationship? rid = some (t, r)) :
    db.FindsTable sid hid t ∧ t.relationship? rid = some r := by
  obtain ⟨ht, hfind⟩ := Schema.relationship?_spec hr
  obtain ⟨hids, hheld⟩ := h s hs
  have hrid : r.id = rid := by simpa using List.find?_some hfind
  have htid : t.id = hid := hheld t ht r (List.mem_of_find?_eq_some hfind) hrid
  exact ⟨⟨s, hs, htid ▸ Schema.table?_of_mem hids ht⟩, hfind⟩

/-- Tables related one to one, keeping their ids and holding relationships only under ids they
held, keep the relationship `rid` held at `hid`. -/
theorem HeldAt.of_tablewise {T : Table → Table → Prop} (h : db.HeldAt sid rid hid)
    (hT : ∀ t t', T t t' → t'.id = t.id ∧ ∀ r' ∈ t'.relationships, ∃ r ∈ t.relationships, r.id = r'.id)
    (hg : db.Tablewise T db') : db'.HeldAt sid rid hid := by
  intro s' hs'
  have hsid : ∀ s s' : Schema, s'.id = s.id ∧ List.Forall₂ T s.tables s'.tables →
      decide (s'.id = sid) = decide (s.id = sid) := fun _ _ hs => by rw [hs.1]
  obtain ⟨s, hs, -, htables⟩ := forall₂_find? hsid hg.2 hs'
  obtain ⟨hids, hheld⟩ := h s hs
  refine ⟨forall₂_map_eq htables (fun _ _ ht => (hT _ _ ht).1) ▸ hids, fun t' ht' r' hr' hrid => ?_⟩
  obtain ⟨t, ht, htt⟩ := forall₂_exists_of_mem_right htables ht'
  obtain ⟨r, hr, hrr⟩ := (hT t t' htt).2 r' hr'
  rw [(hT t t' htt).1]
  exact hheld t ht r hr (hrr.trans hrid)

theorem HeldAt.of_grows (h : db.HeldAt sid rid hid) (hg : db.Grows db') :
    db'.HeldAt sid rid hid := by
  obtain ⟨New, hg⟩ := hg
  -- tables and relationships keep their ids as they grow
  refine h.of_tablewise (fun t t' htt => ⟨htt.id, fun r' hr' => ?_⟩) hg
  obtain ⟨r, hr, hrr⟩ := forall₂_exists_of_mem_right htt.rels hr'
  exact ⟨r, hr, hrr.1.id.symm⟩

theorem Filled.of_grows (h : db.Filled sid hid rid) (hg : db.Grows db') :
    db'.Filled sid hid rid := by
  obtain ⟨New, hg⟩ := hg
  intro t' ht' r' hr' hnil
  obtain ⟨t, r, ht, -, hr, hext, -⟩ := hg.growsBy_lookup ht' hr'
  exact h t ht r hr (List.subset_nil.1 (hnil ▸ hext.columns))

theorem Filled.of_mapsKey {k : Id} (h : db.MapsKey sid hid rid k) : db.Filled sid hid rid := by
  intro t ht r hr hnil
  have := h t ht r hr
  simp [Relationship.mapsPkColumn, hnil] at this

end Database

namespace EditM

/-! ## Loops over the items still to come -/

section Preorder

variable {R : Database → Database → Prop} [IsPreorder Database R]

/-- A loop whose every step keeps `R` from `Q` of the items still to come, and leaves `Q` of those
after it. -/
theorem KeepsFrom.forM {α : Type} {f : α → EditM Unit} {Q : List α → Database → Prop}
    (hf : ∀ a rest, KeepsFrom (Q (a :: rest)) R (f a))
    (hQ : ∀ a rest, KeepsFrom (Q (a :: rest)) (fun _ db' => Q rest db') (f a)) :
    ∀ xs : List α, KeepsFrom (Q xs) R (xs.forM f)
  | [] => (Keeps.pure ()).keepsFrom
  | x :: xs => by
    rw [List.forM_eq_forM, List.forM_cons]
    exact KeepsFrom.bind_post (hf x xs) (hQ x xs) fun _ => KeepsFrom.forM hf hQ xs

end Preorder

theorem reads_provider (sid tid : Id) : Reads (Database.FindsTable sid tid) (provider sid tid) := by
  unfold provider
  refine Reads.bind (reads_schema sid) fun s => ?_
  split
  next t ht => exact Reads.pure fun _ hs => ⟨s, hs, ht⟩
  next => exact Reads.throw _

theorem keeps_grows_attachForeignKey (sid hid rid pid : Id) (spec : FkSpec) :
    Keeps Database.Grows (attachForeignKey sid hid rid pid spec) :=
  fun st a st' h => ⟨_, attachForeignKey_growsBy sid hid rid pid spec st a st' h⟩

/-! ## Mapping the provider's key -/

/-- The loop of `completeIdentifying`: each key column mapped onto a fresh holder column, while
the relationship maps none of the columns still to come. -/
theorem keepsKeys_mapKeyColumns (sid hid rid pid : Id) (pks : List Id) :
    KeepsFrom (fun db => pks.Nodup ∧ db.Unmapped sid hid rid pks []) Database.KeepsKeysSound
      (pks.forM fun pk => freshSpec pk >>= fun spec =>
        attachForeignKey sid hid rid pid spec >>= fun _ => pure ()) := by
  refine KeepsFrom.forM (Q := fun pks db => pks.Nodup ∧ db.Unmapped sid hid rid pks [])
    (fun pk rest => ?_) (fun pk rest => ?_) pks
  · -- the next key column and the fresh holder column are both unmapped
    refine KeepsFrom.bind_reads (reads_freshSpec pk) fun spec => ?_
    refine KeepsFrom.bind ((keepsKeys_attachForeignKey _ _ _ _ spec).mono_left ?_) fun _ =>
      Keeps.pure _
    rintro db ⟨⟨-, hun⟩, hpk, hfresh⟩ t ht r hr
    refine ⟨hpk ▸ (hun t ht r hr).1 pk List.mem_cons_self, ?_⟩
    exact Database.mapsFkColumn_eq_false ht (List.mem_of_find?_eq_some hr) hfresh
  · -- the mapping added maps `pk`, which is not among the columns still to come
    rintro st u st' ⟨hnd, hun⟩ h
    obtain ⟨spec, st₁, h₁, h₂⟩ := run_bind_ok h
    obtain ⟨hdb, hpk, -⟩ := reads_freshSpec pk st spec st₁ h₁
    obtain ⟨fk, st₂, h₃, h₄⟩ := run_bind_ok h₂
    obtain ⟨-, rfl⟩ := pure_run h₄
    have hg : st₁.db.Tablewise (Table.GrowsBy fun _ _ m => m.pkColumnId = pk) st₂.db :=
      attachForeignKey_growsBy_of sid hid rid pid spec (fun _ => hpk) st₁ fk st₂ h₃
    have hrest := (List.nodup_cons.1 hnd).1
    refine ⟨(List.nodup_cons.1 hnd).2, (hdb ▸ hun.tail).of_growsBy hg fun m hm => ?_⟩
    exact ⟨fun hin => hrest (hm ▸ hin), List.not_mem_nil⟩

theorem Keeps.heldFilled {α : Type} {x : EditM α} (sid rid hid : Id) (hx : Keeps Database.Grows x) :
    Keeps (fun db db' => db.HeldAt sid rid hid ∧ db.Filled sid hid rid →
      db'.HeldAt sid rid hid ∧ db'.Filled sid hid rid) x :=
  fun st a st' h hq => ⟨hq.1.of_grows (hx st a st' h), hq.2.of_grows (hx st a st' h)⟩

theorem keeps_grows_mapKeyColumns (sid hid rid pid : Id) (pks : List Id) :
    Keeps Database.Grows (pks.forM fun pk => freshSpec pk >>= fun spec =>
      attachForeignKey sid hid rid pid spec >>= fun _ => pure ()) :=
  Keeps.forM (fun _ => Keeps.bind (keeps_freshSpec _) fun _ =>
    Keeps.bind (keeps_grows_attachForeignKey _ _ _ _ _) fun _ => Keeps.pure _) pks

/-- Completing an identifying relationship whose holder alone holds it and which has mappings:
the key columns of the provider it does not map are mapped, each once, and its holder's key
grows by its holder columns, at least one. -/
theorem keepsKeys_completeIdentifying (sid rid hid : Id) :
    KeepsFrom (fun db => db.KeysSound ∧ db.HeldAt sid rid hid ∧ db.Filled sid hid rid)
      Database.KeepsKeysSound (completeIdentifying sid rid) := by
  unfold completeIdentifying
  refine KeepsFrom.bind_reads (reads_relationship _ _) fun found => ?_
  obtain ⟨holder, r⟩ := found
  dsimp only
  refine KeepsFrom.bind_reads (reads_provider _ _) fun p => ?_
  refine (KeepsFrom.bind_carry (keepsKeys_mapKeyColumns _ _ _ _ _)
    ((keeps_grows_mapKeyColumns _ _ _ _ _).heldFilled sid rid hid).keepsFrom fun _ => ?_).mono_left ?_
  · -- the relationship found again is the one the loop grew: it has mappings
    refine KeepsFrom.bind_reads (reads_relationship _ _) fun found => ?_
    refine KeepsFrom.bind ?_ fun _ => ?_
    · rintro st u st' ⟨⟨hheld, hfill⟩, s, hs, hfound⟩ h
      obtain ⟨hholder, hr⟩ := hheld.findsTable hs hfound
      have hne : found.2.fkColumnIds ≠ [] := by
        simpa [Relationship.fkColumnIds] using hfill _ hholder _ hr
      exact keepsKeys_addToPrimaryKey sid found.1.id hne st u st' h
    · exact Keeps.ite (fun _ => Keeps.bind (keepsKeys_propagateKeys _ _ _) fun _ => Keeps.pure _)
        fun _ => Keeps.pure _
  · -- the provider's key columns are distinct, and those left to map are not mapped yet
    rintro db ⟨⟨⟨hk, hheld, hfill⟩, s, hs, hfound⟩, hp⟩
    obtain ⟨hholder, hr⟩ := hheld.findsTable hs hfound
    refine ⟨⟨(hk.findsTable hp).keyColumns_nodup.filter _, fun t ht r' hr' => ?_⟩, hheld, hfill⟩
    obtain rfl := ht.unique (hholder.id_eq ▸ hholder)
    rw [hr, Option.some_inj] at hr'
    subst hr'
    refine ⟨fun pk hpk => ?_, fun _ h => absurd h List.not_mem_nil⟩
    simpa using (List.mem_filter.1 hpk).2

/-! ## Mapping a draft's columns -/

/-- The mapping loop of `createRelationship`: each draft mapped while the relationship maps none
of the columns of the drafts still to come. -/
theorem keepsKeys_mapDrafts (sid hid rid pid : Id) (ms : List MappingDraft) :
    KeepsFrom (fun db => (ms.map (·.pkColumnId)).Nodup ∧ (ms.map (·.fkColumnId)).Nodup ∧
        db.Unmapped sid hid rid (ms.map (·.pkColumnId)) (ms.map (·.fkColumnId)))
      Database.KeepsKeysSound
      (ms.forM fun m => attachForeignKey sid hid rid pid m.spec >>= fun _ => pure ()) := by
  refine KeepsFrom.forM (R := Database.KeepsKeysSound)
    (Q := fun ms db => (ms.map (·.pkColumnId)).Nodup ∧ (ms.map (·.fkColumnId)).Nodup ∧
      db.Unmapped sid hid rid (ms.map (·.pkColumnId)) (ms.map (·.fkColumnId)))
    (fun m rest => ?_) (fun m rest => ?_) ms
  · -- the draft's two columns are among those still to come
    refine KeepsFrom.bind ((keepsKeys_attachForeignKey _ _ _ _ m.spec).mono_left ?_) fun _ =>
      Keeps.pure _
    rintro db ⟨-, -, hun⟩ t ht r hr
    exact ⟨(hun t ht r hr).1 _ List.mem_cons_self, (hun t ht r hr).2 _ List.mem_cons_self⟩
  · -- the mapping added maps the draft's columns, which no later draft names
    rintro st u st' ⟨hpks, hfks, hun⟩ h
    obtain ⟨fk, st₁, h₁, h₂⟩ := run_bind_ok h
    obtain ⟨-, rfl⟩ := pure_run h₂
    have hg : st.db.Tablewise (Table.GrowsBy fun _ _ m' =>
        m'.pkColumnId = m.pkColumnId ∧ m'.fkColumnId = m.fkColumnId) st₁.db :=
      attachForeignKey_growsBy_of sid hid rid pid m.spec (fun _ => ⟨rfl, rfl⟩) st fk st₁ h₁
    rw [List.map_cons, List.nodup_cons] at hpks hfks
    have hun' : st.db.Unmapped sid hid rid (rest.map (·.pkColumnId)) (rest.map (·.fkColumnId)) :=
      fun t ht r hr => ⟨fun p hp => (hun t ht r hr).1 p (List.mem_cons_of_mem _ hp),
        fun f hf => (hun t ht r hr).2 f (List.mem_cons_of_mem _ hf)⟩
    refine ⟨hpks.2, hfks.2, hun'.of_growsBy hg fun m' hm' => ?_⟩
    exact ⟨fun hin => hpks.1 (hm'.1 ▸ hin), fun hin => hfks.1 (hm'.2 ▸ hin)⟩

theorem keeps_grows_mapDrafts (sid hid rid pid : Id) (ms : List MappingDraft) :
    Keeps Database.Grows
      (ms.forM fun m => attachForeignKey sid hid rid pid m.spec >>= fun _ => pure ()) :=
  Keeps.forM (fun _ => Keeps.bind (keeps_grows_attachForeignKey _ _ _ _ _) fun _ => Keeps.pure _) ms

/-- After mapping at least one draft, the relationship has mappings. -/
theorem ensures_filled_mapDrafts (sid hid rid pid : Id) {ms : List MappingDraft} (hne : ms ≠ []) :
    Ensures (Database.Filled sid hid rid)
      (ms.forM fun m => attachForeignKey sid hid rid pid m.spec >>= fun _ => pure ()) := by
  obtain ⟨m, rest, rfl⟩ := List.exists_cons_of_ne_nil hne
  intro st u st' h
  rw [List.forM_eq_forM, List.forM_cons] at h
  obtain ⟨_, st₁, h₁, h₂⟩ := run_bind_ok h
  -- the first draft is mapped, and what follows only adds
  have hfirst : Ensures (Database.MapsKey sid hid rid m.spec.pkColumnId)
      (attachForeignKey sid hid rid pid m.spec >>= fun _ => pure ()) :=
    Ensures.bind_left (attachForeignKey_ensures sid hid rid pid m.spec) fun _ => Keeps.pure _
  exact (Database.Filled.of_mapsKey (hfirst st _ st₁ h₁)).of_grows
    (keeps_grows_mapDrafts sid hid rid pid rest st₁ _ st' h₂)

theorem keepsFrom_heldFilled_mapDrafts (sid hid rid pid : Id) {ms : List MappingDraft}
    (hne : ms ≠ []) :
    KeepsFrom (Database.HeldAt sid rid hid)
      (fun _ db' => db'.HeldAt sid rid hid ∧ db'.Filled sid hid rid)
      (ms.forM fun m => attachForeignKey sid hid rid pid m.spec >>= fun _ => pure ()) :=
  fun st u st' hheld h => ⟨hheld.of_grows (keeps_grows_mapDrafts sid hid rid pid ms st u st' h),
    ensures_filled_mapDrafts sid hid rid pid hne st u st' h⟩

end EditM

end SchemaDesign
