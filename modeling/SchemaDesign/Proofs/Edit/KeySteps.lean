import SchemaDesign.Proofs.Edit.KeyShapes
import SchemaDesign.Proofs.Edit.UniqueNames

/-!
# Steps that keep sound keys

`Database.KeepsKeysSound` relates two snapshots when sound keys in the first give sound keys in
the second (`Database.KeysSound`). It is a preorder, so a step built of parts keeps it once its
parts do. The parts fall into a few kinds:

- changes that keep every definition, and removals, which prune (`KeyShapes`);
- changes checked afterwards by `ensureDistinctDefinition`, `ensureDistinctKey` or
  `ensureKeyNotRestated`: the change is sound when the check that follows passes, which
  `KeepsFrom.bind_needs` joins to the step (`Needs`: a step that runs only from snapshots where a
  fact holds);
- mapping a provider column into a relationship (`attachForeignKey`), sound when the relationship
  maps neither of the two columns yet (`Database.MapsNeither`). Key propagation maps a column only
  after finding it unmapped, onto a holder column minted fresh: a minted id is mentioned nowhere
  in the snapshot (`EditM.reads_mint`).
- growing the primary key (`addToPrimaryKey`) by at least one column, checked for a UNIQUE
  constraint restating it.
-/

namespace SchemaDesign

/-- Sound keys in `db` give sound keys in `db'`. -/
def Database.KeepsKeysSound (db db' : Database) : Prop := db.KeysSound → db'.KeysSound

instance : IsPreorder Database Database.KeepsKeysSound where
  refl _ h := h
  trans _ _ _ h₁ h₂ h := h₂ (h₁ h)

/-- Sound keys in `t` give sound keys in `t'`. -/
def Table.KeepsKeysSound (t t' : Table) : Prop := t.KeysSound → t'.KeysSound

instance : IsPreorder Table Table.KeepsKeysSound where
  refl _ h := h
  trans _ _ _ h₁ h₂ h := h₂ (h₁ h)

namespace Database

theorem Tablewise.keepsKeysSound {db db' : Database} (h : db.Tablewise Table.KeepsKeysSound db') :
    db.KeepsKeysSound db' := by
  intro hk s' hs' t' ht'
  obtain ⟨s, hs, -, htables⟩ := forall₂_exists_of_mem_right h.2 hs'
  obtain ⟨t, ht, htt⟩ := forall₂_exists_of_mem_right htables ht'
  exact htt (hk s hs t ht)

theorem KeysSound.updateTable {db : Database} (h : db.KeysSound) {sid tid : Id} {s : Schema}
    {t : Table} (hs : db.schema? sid = some s) (ht : s.table? tid = some t) {f : Table → Table}
    (hf : t.KeysSound → (f t).KeysSound) : (db.updateTable sid tid f).KeysSound :=
  (EditM.tablewise_updateTable (T := Table.KeepsKeysSound) hs ht hf).keepsKeysSound h

theorem KeysSound.table {db : Database} (h : db.KeysSound) {sid tid : Id} {s : Schema}
    {t : Table} (hs : db.schema? sid = some s) (ht : s.table? tid = some t) : t.KeysSound :=
  h s (List.mem_of_find?_eq_some hs) t (List.mem_of_find?_eq_some ht)

/-- Every mapping of the snapshot mentions its holder column. -/
theorem fkColumnId_mem_mentionedIds {db : Database} {sid tid : Id} {t : Table}
    (ht : db.FindsTable sid tid t) {r : Relationship} (hr : r ∈ t.relationships) {m : KeyMapping}
    (hm : m ∈ r.columns) : m.fkColumnId ∈ db.mentionedIds := by
  obtain ⟨s, hs, ht⟩ := ht
  have hrm : m.fkColumnId ∈ t.mentionedIds :=
    List.mem_cons_of_mem _ (List.mem_cons_of_mem _ (List.mem_append_right _ (List.mem_flatMap.2
      ⟨r, hr, List.mem_cons_of_mem _ (List.mem_cons_of_mem _ (List.mem_cons_of_mem _
        (List.mem_flatMap.2 ⟨m, hm, by simp⟩)))⟩)))
  exact List.mem_cons_of_mem _ (List.mem_flatMap.2 ⟨s, List.mem_of_find?_eq_some hs,
    List.mem_cons_of_mem _ (List.mem_cons_of_mem _
      (List.mem_flatMap.2 ⟨t, List.mem_of_find?_eq_some ht, hrm⟩))⟩)

theorem mapsFkColumn_eq_false {db : Database} {sid tid : Id} {t : Table}
    (ht : db.FindsTable sid tid t) {r : Relationship} (hr : r ∈ t.relationships) {fk : Id}
    (hfk : fk ∉ db.mentionedIds) : r.mapsFkColumn fk = false := by
  simp only [Relationship.mapsFkColumn, List.any_eq_false, decide_eq_true_eq]
  intro m hm hmfk
  exact hfk (hmfk ▸ fkColumnId_mem_mentionedIds ht hr hm)

end Database

/-! ## Minted ids -/

/-- The id a supply hands out is not among those it was told are used. -/
theorem IdSupply.mintUnused_not_mem {used : List Id} :
    ∀ (s : IdSupply) (fuel : Nat) {i : Id} {s' : IdSupply},
      s.mintUnused used fuel = some (i, s') → i ∉ used
  | _, 0, _, _, h => by cases h
  | s, fuel + 1, i, s', h => by
    unfold IdSupply.mintUnused at h
    split at h
    · exact mintUnused_not_mem _ fuel h
    · next hc =>
      simp only [IdSupply.mint, Option.some.injEq, Prod.mk.injEq] at h
      obtain ⟨rfl, -⟩ := h
      simpa using hc

namespace EditM

/-- A minted id is mentioned nowhere in the snapshot. -/
theorem reads_mint : Reads (fun i db => i ∉ db.mentionedIds) mint := by
  intro st i st' h
  refine ⟨mint_run h, ?_⟩
  unfold mint at h
  obtain ⟨st₀, st₁, h₁, h₂⟩ := run_bind_ok h
  have hget : (get : EditM Session).run st = .ok st st := rfl
  rw [hget, EStateM.Result.ok.injEq] at h₁
  obtain ⟨rfl, rfl⟩ := h₁
  dsimp only at h₂
  cases hm : st.supply.mintUnused st.db.mentionedIds (st.db.mentionedIds.length + 1) with
  | none =>
    rw [hm] at h₂
    cases h₂
  | some found =>
    obtain ⟨i', supply⟩ := found
    rw [hm] at h₂
    obtain ⟨_, st₂, -, h₄⟩ := run_bind_ok h₂
    obtain ⟨rfl, -⟩ := pure_run h₄
    exact IdSupply.mintUnused_not_mem _ _ hm

theorem reads_freshSpec (pk : Id) :
    Reads (fun spec db => spec.pkColumnId = pk ∧ spec.fkColumnId ∉ db.mentionedIds)
      (freshSpec pk) := by
  unfold freshSpec
  exact Reads.bind_keeps keeps_mint fun _ =>
    Reads.bind reads_mint fun _ => Reads.pure fun _ hfk => ⟨rfl, hfk⟩

/-! ## Steps that run only from some snapshots -/

/-- Every successful run of `x` starts from a snapshot where `Q` holds: what a check tells about
the snapshot the steps before it left. -/
def Needs {α : Type} (Q : Database → Prop) (x : EditM α) : Prop :=
  ∀ st a st', x.run st = .ok a st' → Q st.db

theorem Needs.check (r : Except DesignError Unit) : Needs (fun _ => r = .ok ()) (check r) :=
  fun _ _ _ h => (check_run h).2

theorem Needs.bind_left {α β : Type} {Q : Database → Prop} {x : EditM α} {f : α → EditM β}
    (hx : Needs Q x) : Needs Q (x >>= f) := by
  intro st b st'' h
  obtain ⟨a, st', h₁, -⟩ := run_bind_ok h
  exact hx _ _ _ h₁

theorem Needs.bind_reads {α β : Type} {Q : Database → Prop} {Q₁ : α → Database → Prop}
    {x : EditM α} {f : α → EditM β} (hx : Reads Q₁ x) (hf : ∀ a, Needs (fun db => Q₁ a db → Q db) (f a)) :
    Needs Q (x >>= f) := by
  intro st b st'' h
  obtain ⟨a, st', h₁, h₂⟩ := run_bind_ok h
  obtain ⟨hdb, hq⟩ := hx st a st' h₁
  have := hf a st' b st'' h₂
  rw [hdb] at this
  exact this hq

theorem needs_checkTable {β : Type} (sid tid : Id) (chk : Table → Except DesignError Unit)
    (rest : Unit → EditM β) :
    Needs (fun db => ∀ t, db.FindsTable sid tid t → chk t = .ok ())
      (table sid tid >>= fun t => check (chk t) >>= rest) :=
  Needs.bind_reads (reads_table sid tid) fun _ => Needs.bind_left fun st a st' h ht _ ht' =>
    (ht'.unique ht) ▸ Needs.check _ st a st' h

section Preorder

variable {R : Database → Database → Prop} [IsPreorder Database R]

/-- A step that relates its ends once a fact about its end holds, followed by steps that run only
where the fact holds. -/
theorem KeepsFrom.bind_needs {α β : Type} {P Q : Database → Prop} {x : EditM α} {y : α → EditM β}
    (hx : KeepsFrom P (fun db db' => Q db' → R db db') x) (hn : ∀ a, Needs Q (y a))
    (hy : ∀ a, Keeps R (y a)) : KeepsFrom P R (x >>= y) := by
  intro st b st'' hp h
  obtain ⟨a, st', h₁, h₂⟩ := run_bind_ok h
  exact IsTrans.trans _ _ _ (hx st a st' hp h₁ (hn a st' b st'' h₂)) (hy a st' b st'' h₂)

theorem KeepsFrom.bind_post {α β : Type} {P Q : Database → Prop} {x : EditM α} {f : α → EditM β}
    (hx : KeepsFrom P R x) (hQ : KeepsFrom P (fun _ db' => Q db') x)
    (hf : ∀ a, KeepsFrom Q R (f a)) : KeepsFrom P R (x >>= f) := by
  intro st b st'' hp h
  obtain ⟨a, st', h₁, h₂⟩ := run_bind_ok h
  exact IsTrans.trans _ _ _ (hx st a st' hp h₁) (hf a st' b st'' (hQ st a st' hp h₁) h₂)

end Preorder

/-! ## Changing a table -/

theorem keepsFrom_modifyTable_keys {P : Database → Prop} {sid tid : Id} {f : Table → Table}
    (hf : ∀ db t, P db → db.FindsTable sid tid t → t.KeysSound → (f t).KeysSound) :
    KeepsFrom P Database.KeepsKeysSound (modifyTable sid tid f) :=
  keepsFrom_modifyTable fun db s t hp hs ht hk => hk.updateTable hs ht (hf db t hp ⟨s, hs, ht⟩)

theorem keeps_modifyTable_keys {sid tid : Id} {f : Table → Table}
    (hf : ∀ t, t.KeysSound → (f t).KeysSound) :
    Keeps Database.KeepsKeysSound (modifyTable sid tid f) :=
  KeepsFrom.keeps (keepsFrom_modifyTable_keys fun _ t _ _ => hf t)

theorem keepsFrom_putTable_keys {sid tid : Id} {t t' : Table} (h : t.KeysSound → t'.KeysSound) :
    KeepsFrom (Database.FindsTable sid tid t) Database.KeepsKeysSound (putTable sid tid t') :=
  keepsFrom_modifyTable_keys fun _ t₀ ht ht₀ => by
    obtain rfl := ht₀.unique ht
    exact h

/-- A change of the table found, checked afterwards: sound when the changed table passes the
check. -/
theorem keepsFrom_modifyTable_checked {P : Database → Prop} {sid tid : Id} {f : Table → Table}
    {chk : Table → Except DesignError Unit} (hid : ∀ t, t.id = tid → (f t).id = tid)
    (hf : ∀ db t, P db → db.FindsTable sid tid t → t.KeysSound → chk (f t) = .ok () →
      (f t).KeysSound) :
    KeepsFrom P (fun db db' => (∀ t', db'.FindsTable sid tid t' → chk t' = .ok ()) →
      db.KeepsKeysSound db') (modifyTable sid tid f) := by
  intro st u st' hp h hchk hk
  obtain ⟨hdb, s, t, hs, ht⟩ := modifyTable_run h
  have hfound : st.db.FindsTable sid tid t := ⟨s, hs, ht⟩
  have hpass : chk (f t) = .ok () :=
    hchk _ (by rw [hdb, Database.findsTable_updateTable hid]; exact ⟨t, hfound, rfl⟩)
  rw [hdb]
  exact hk.updateTable hs ht fun hkt => hf _ t hp hfound hkt hpass

/-- A change of the table found, then a check of the table read again, then steps that keep sound
keys. -/
theorem keepsFrom_modifyTable_check {β : Type} {P : Database → Prop} {sid tid : Id}
    {f : Table → Table} {chk : Table → Except DesignError Unit} {rest : Unit → EditM β}
    (hid : ∀ t, t.id = tid → (f t).id = tid)
    (hf : ∀ db t, P db → db.FindsTable sid tid t → t.KeysSound → chk (f t) = .ok () →
      (f t).KeysSound)
    (hrest : ∀ u, Keeps Database.KeepsKeysSound (rest u)) :
    KeepsFrom P Database.KeepsKeysSound
      (modifyTable sid tid f >>= fun _ => table sid tid >>= fun t => check (chk t) >>= rest) :=
  KeepsFrom.bind_needs (keepsFrom_modifyTable_checked hid hf)
    (fun _ => needs_checkTable sid tid chk rest)
    (fun _ => Keeps.bind (keeps_table _ _).of_eq fun _ => Keeps.bind (keeps_check _).of_eq hrest)

end EditM

/-! ## Mapping a provider column -/

/-- The relationship `rid` of table `hid` in schema `sid` maps neither the provider column `pk`
nor the holder column `fk`: what mapping `fk` to `pk` into it needs. -/
def Database.MapsNeither (sid hid rid pk fk : Id) (db : Database) : Prop :=
  ∀ t, db.FindsTable sid hid t → ∀ r, t.relationship? rid = some r →
    r.mapsPkColumn pk = false ∧ r.mapsFkColumn fk = false

namespace EditM

theorem keeps_modifyTable_mapsNeither {sid hid rid pk fk : Id} {f : Table → Table}
    (hf : ∀ t, (f t).id = t.id ∧ (f t).relationships = t.relationships) :
    Keeps (fun db db' => db.MapsNeither sid hid rid pk fk → db'.MapsNeither sid hid rid pk fk)
      (modifyTable sid hid f) := by
  intro st u st' h hm t' ht' r hr
  rw [(modifyTable_run h).1, Database.findsTable_updateTable fun t ht => (hf t).1.trans ht] at ht'
  obtain ⟨t, ht, rfl⟩ := ht'
  exact hm t ht r (by rwa [Table.relationship?, (hf t).2] at hr)

/-- A change of the holder that keeps its id, keys and relationships, before steps that keep
sound keys from unmapped columns. -/
theorem keepsFrom_modifyTable_unmapped {β : Type} {sid hid rid pk fk : Id} {f : Table → Table}
    {rest : Unit → EditM β}
    (hf : ∀ t, (f t).id = t.id ∧ (f t).indexes = t.indexes ∧ (f t).constraints = t.constraints ∧
      (f t).relationships = t.relationships)
    (hrest : ∀ u, KeepsFrom (Database.MapsNeither sid hid rid pk fk) Database.KeepsKeysSound
      (rest u)) :
    KeepsFrom (Database.MapsNeither sid hid rid pk fk) Database.KeepsKeysSound
      (modifyTable sid hid f >>= rest) := by
  have hkeys : Keeps Database.KeepsKeysSound (modifyTable sid hid f) :=
    keeps_modifyTable_keys fun t ht => ht.of_keys_eq (hf t).2.1 (hf t).2.2.1 (hf t).2.2.2
  have hmaps : Keeps (fun db db' => db.MapsNeither sid hid rid pk fk →
      db'.MapsNeither sid hid rid pk fk) (modifyTable sid hid f) :=
    keeps_modifyTable_mapsNeither fun t => ⟨(hf t).1, (hf t).2.2.2⟩
  exact (KeepsFrom.bind_carry hkeys.keepsFrom hmaps.keepsFrom hrest).mono_left
    fun _ h => ⟨trivial, h⟩

/-- Mapping a provider column into a relationship that maps neither it nor the holder column: the
holder column may be created first, which changes no key, then the mapping is appended. -/
theorem keepsKeys_attachForeignKey (sid hid rid pid : Id) (spec : FkSpec) :
    KeepsFrom (Database.MapsNeither sid hid rid spec.pkColumnId spec.fkColumnId)
      Database.KeepsKeysSound (attachForeignKey sid hid rid pid spec) := by
  unfold attachForeignKey
  simp only [pure_bind, Table.resequenceColumns]
  refine KeepsFrom.bind_eq (keeps_table _ _) fun provider => ?_
  split
  · refine KeepsFrom.bind_eq (keeps_table _ _) fun holder => ?_
    refine KeepsFrom.ite (fun _ => KeepsFrom.bind_eq (keeps_ensureFreshId _ _) fun _ => ?_) fun _ => ?_
    -- a new holder column changes no key and maps nothing
    on_goal 1 =>
      split
      on_goal 1 => refine KeepsFrom.bind_eq (reads_checkColumnName _ _ _ _).keeps fun _ => ?_
      on_goal 2 => refine KeepsFrom.bind_eq keeps_config fun _ => ?_
      all_goals refine keepsFrom_modifyTable_unmapped (fun _ => ⟨rfl, rfl, rfl, rfl⟩) fun _ => ?_
    all_goals
      refine KeepsFrom.bind_eq (keeps_ensureFreshId _ _) fun _ =>
        KeepsFrom.bind_eq (keeps_table _ _) fun _ => ?_
      refine KeepsFrom.ite (fun _ => (Keeps.throw_bind _ _).keepsFrom) fun _ => ?_
      exact KeepsFrom.bind (keepsFrom_modifyTable_keys fun _ t hp ht hk =>
        hk.attach fun r hr => hp t ht r hr) fun _ => Keeps.pure _
  · exact (Keeps.throw _).keepsFrom

/-- A key column of the provider copied into a dependent relationship that does not map it yet,
onto a holder column minted fresh. -/
theorem keepsKeys_propagateKey (sid pid hid rid : Id) (added : List Id) (key : Id) :
    Keeps Database.KeepsKeysSound (propagateKey sid pid hid rid added key) := by
  unfold propagateKey
  refine Keeps.bind_reads (reads_table _ _) fun holder => ?_
  -- the key is mapped unless the holder's relationship, as read, does not map it yet
  have hattach : (∀ r, holder.relationship? rid = some r → r.mapsPkColumn key = false) →
      KeepsFrom (fun db => db.FindsTable sid hid holder) Database.KeepsKeysSound
        (freshSpec key >>= fun spec => attachForeignKey sid hid rid pid spec >>= fun fk =>
          pure (added ++ [fk])) := by
    intro hunmapped
    refine KeepsFrom.bind_reads (reads_freshSpec key) fun spec => ?_
    refine KeepsFrom.bind ((keepsKeys_attachForeignKey _ _ _ _ spec).mono_left ?_) fun _ =>
      Keeps.pure _
    rintro db ⟨hholder, hpk, hfresh⟩ t ht r hr
    obtain rfl := ht.unique hholder
    refine ⟨?_, Database.mapsFkColumn_eq_false ht (List.mem_of_find?_eq_some hr) hfresh⟩
    rw [hpk]
    exact hunmapped r hr
  dsimp only
  split
  next r hr =>
    split
    · exact Keeps.keepsFrom (Keeps.pure _)
    · next hmapped =>
      refine hattach fun r' hr' => ?_
      rw [hr, Option.some_inj] at hr'
      simpa [hr'] using hmapped
  next hr =>
    exact hattach fun r' hr' => by simp_all

end EditM

/-! ## Growing the key -/

/-- Constraints ready to have their key grown: at most one primary key, whose columns appear once
each, and the other constraints sound. -/
structure KeyReady (ks : List Constraint) : Prop where
  others : ConstraintsSound (ks.filter (!·.isPrimaryKey))
  onePrimaryKey : ks.countP (·.isPrimaryKey) ≤ 1
  keyNodup : ∀ pk ∈ ks, pk.isPrimaryKey → pk.columnIds.Nodup

theorem ConstraintsSound.keyReady {ks : List Constraint} (h : ConstraintsSound ks) : KeyReady ks :=
  ⟨h.sublist List.filter_sublist, h.onePrimaryKey,
    fun pk hpk _ => (h.wellFormed pk hpk).columnIds_nodup⟩

/-- An empty key added to constraints without one. -/
theorem KeyReady.append_key {ks : List Constraint} (h : KeyReady ks)
    (hnone : ks.countP (·.isPrimaryKey) = 0) {pk : Constraint} (hpk : pk.isPrimaryKey)
    (hcols : pk.columns = []) : KeyReady (ks ++ [pk]) := by
  refine ⟨?_, ?_, fun k hk hkp => ?_⟩
  · simpa [List.filter_append, hpk] using h.others
  · simp [List.countP_append, hnone, hpk]
  · rcases List.mem_append.1 hk with hk | hk
    · exact h.keyNodup k hk hkp
    · rw [List.mem_singleton.1 hk, Constraint.columnIds, hcols]
      exact List.nodup_nil

theorem countP_replaceKey {ks : List Constraint} (hone : ks.countP (·.isPrimaryKey) ≤ 1)
    {pk : Constraint} (hpk : pk.isPrimaryKey) :
    (updateFirst (·.isPrimaryKey) (fun _ => pk) ks).countP (·.isPrimaryKey) ≤ 1 := by
  rw [updateFirst_eq_map hone, List.countP_map]
  refine (List.countP_congr fun k _ => ?_).trans_le hone
  by_cases hk : k.isPrimaryKey <;> simp [hk, hpk]

namespace EditM

/-- Appending a column the key does not hold keeps its columns distinct. -/
theorem appendKeyColumn_nodup {pk pk' : Constraint} {c : Id} {st st' : Session}
    (h : (appendKeyColumn pk c).run st = .ok pk' st') (hn : pk.columnIds.Nodup) :
    pk'.columnIds.Nodup := by
  unfold appendKeyColumn at h
  split at h
  next =>
    obtain ⟨rfl, rfl⟩ := pure_run h
    exact hn
  next hc =>
    obtain ⟨id, st₁, -, h₂⟩ := run_bind_ok h
    obtain ⟨rfl, rfl⟩ := pure_run h₂
    have hc' : ∀ e ∈ pk.columns, e.columnId ≠ c := by
      simpa [Constraint.containsColumn] using hc
    simp only [Constraint.columnIds, List.map_append, List.map_singleton]
    refine List.nodup_append.2 ⟨hn, List.nodup_singleton _, ?_⟩
    intro a ha b hb hab
    rw [List.mem_singleton] at hb
    obtain ⟨e, he, rfl⟩ := List.mem_map.1 ha
    exact hc' e he (hab.trans hb)

/-- The key with columns appended one by one: the same kind, each column once, and every
column given held. -/
theorem foldlM_appendKeyColumn_run {pk pk' : Constraint} {cs : List Id} {st st' : Session}
    (h : (cs.foldlM appendKeyColumn pk).run st = .ok pk' st') :
    st'.db = st.db ∧ pk'.kind = pk.kind ∧ (pk.columnIds.Nodup → pk'.columnIds.Nodup) ∧
      ∀ c ∈ cs, pk'.containsColumn c := by
  obtain ⟨⟨hdb, hkind, -, hnd⟩, hcont⟩ := foldlM_run
    (fun (k k' : Constraint) db db' => db' = db ∧ k'.kind = k.kind ∧ k.columns ⊆ k'.columns ∧
      (k.columnIds.Nodup → k'.columnIds.Nodup))
    (fun c (k : Constraint) _ => k.containsColumn c = true)
    (fun _ _ => ⟨rfl, rfl, List.Subset.refl _, id⟩)
    (fun _ _ _ _ _ _ h₁ h₂ => ⟨h₂.1.trans h₁.1, h₂.2.1.trans h₁.2.1,
      List.Subset.trans h₁.2.2.1 h₂.2.2.1, fun hn => h₂.2.2.2 (h₁.2.2.2 hn)⟩)
    (fun _ _ _ _ _ hc hΦ => Constraint.containsColumn_of_subset hΦ.2.2.1 hc)
    (fun _ _ _ _ _ hrun => ⟨⟨(appendKeyColumn_run hrun).1.1, (appendKeyColumn_run hrun).1.2.1,
      (appendKeyColumn_run hrun).1.2.2, appendKeyColumn_nodup hrun⟩,
      (appendKeyColumn_run hrun).2⟩) cs pk st pk' st' h
  exact ⟨hdb, hkind, hnd, hcont⟩

/-- The table given a key when it had none: its constraints stay ready to grow the key. -/
theorem withPrimaryKey_ready {sid tid : Id} {t t' : Table} {st st' : Session}
    (h : (withPrimaryKey sid tid t).run st = .ok t' st') (hr : KeyReady t.constraints) :
    st'.db = st.db ∧ ∃ ks, t' = { t with constraints := ks } ∧ KeyReady ks ∧
      ∃ pk, ({ t with constraints := ks } : Table).primaryKey? = some pk := by
  unfold withPrimaryKey at h
  split at h
  next pk hpk =>
    obtain ⟨rfl, rfl⟩ := pure_run h
    exact ⟨rfl, t.constraints, rfl, hr, pk, hpk⟩
  next hnone =>
    obtain ⟨name, st₁, h₁, h₂⟩ := run_bind_ok h
    obtain ⟨id, st₂, h₃, h₄⟩ := run_bind_ok h₂
    obtain ⟨rfl, rfl⟩ := pure_run h₄
    have hdb₁ : st.db = st₁.db := (keeps_freshConstraintName sid _ : Keeps Eq _) _ _ _ h₁
    have hdb₂ : st₁.db = st₂.db := keeps_mint _ _ _ h₃
    have hzero : t.constraints.countP (·.isPrimaryKey) = 0 := by
      rw [List.countP_eq_zero]
      intro k hk hkp
      rw [Table.primaryKey?, List.find?_eq_none] at hnone
      exact hnone k hk (by simpa [Constraint.isPrimaryKey] using hkp)
    exact ⟨(hdb₁.trans hdb₂).symm, _, rfl, hr.append_key hzero rfl rfl, _,
      Table.primaryKey?_append hnone rfl⟩

/-- Extending the key of a table that has one replaces it by a key of the same kind holding
every column given, each column once if they were. -/
theorem extendPrimaryKey_grows {t t' : Table} {cs : List Id} {st st' : Session}
    (h : (extendPrimaryKey t cs).run st = .ok t' st') {pk : Constraint}
    (hpk : t.primaryKey? = some pk) :
    st'.db = st.db ∧ ∃ pk', t' = { t with
        constraints := updateFirst (·.isPrimaryKey) (fun _ => pk') t.constraints } ∧
      pk'.isPrimaryKey ∧ (pk.columnIds.Nodup → pk'.columnIds.Nodup) ∧
      ∀ c ∈ cs, pk'.containsColumn c := by
  unfold extendPrimaryKey at h
  rw [hpk] at h
  obtain ⟨pk', st₁, h₁, h₂⟩ := run_bind_ok h
  obtain ⟨rfl, rfl⟩ := pure_run h₂
  obtain ⟨hdb, hkind, hnd, hcont⟩ := foldlM_appendKeyColumn_run h₁
  have hpk' : pk'.isPrimaryKey := by
    simp [Constraint.isPrimaryKey, hkind, Table.kind_of_primaryKey? hpk]
  exact ⟨hdb, pk', rfl, hpk', hnd, hcont⟩

/-- A key that holds at least one column, each once, is well formed. -/
theorem Constraint.wellFormed_of_key {pk : Constraint} (hpk : pk.isPrimaryKey)
    (hne : ∃ c, pk.containsColumn c) (hnd : pk.columnIds.Nodup) : pk.WellFormed := by
  have hkind : pk.kind = .primaryKey := by simpa [Constraint.isPrimaryKey] using hpk
  refine ⟨?_, ?_, ?_, ?_, hnd⟩
  · obtain ⟨c, hc⟩ := hne
    intro hnil
    simp [Constraint.containsColumn, hnil] at hc
  · simp [hkind, ConstraintKind.isSingleColumn]
  · simp [hkind]
  · simp [hkind]

/-- Growing the key by at least one column keeps sound keys: the key stays well formed, and the
check that follows refuses a UNIQUE constraint restating it. -/
theorem keepsKeys_addToPrimaryKey (sid tid : Id) {cs : List Id} (hcs : cs ≠ []) :
    Keeps Database.KeepsKeysSound (addToPrimaryKey sid tid cs) := by
  intro st u st' h hk
  unfold addToPrimaryKey at h
  obtain ⟨t, st₁, h₁, h₂⟩ := run_bind_ok h
  obtain ⟨rfl, s, hs, ht⟩ := table_run h₁
  have hkt : t.KeysSound := hk.table hs ht
  obtain ⟨t₁, st₂, h₃, h₄⟩ := run_bind_ok h₂
  obtain ⟨hdb₂, ks, rfl, hready, pk, hpk⟩ := withPrimaryKey_ready h₃ hkt.constraints.keyReady
  obtain ⟨t₂, st₃, h₅, h₆⟩ := run_bind_ok h₄
  obtain ⟨hdb₃, pk', rfl, hkey, hnd, hcont⟩ := extendPrimaryKey_grows h₅ hpk
  obtain ⟨_, st₄, h₇, h₈⟩ := run_bind_ok h₆
  obtain ⟨hput, -⟩ := modifyTable_run h₇
  obtain ⟨rfl, hchk⟩ := check_run h₈
  rw [hput, hdb₃, hdb₂]
  refine hk.updateTable hs ht fun _ => ⟨hkt.indexes, ?_, hkt.mapsOnce⟩
  obtain ⟨c, hc⟩ := List.exists_mem_of_ne_nil cs hcs
  have hpk₀ : pk.isPrimaryKey := by
    simpa [Constraint.isPrimaryKey] using List.find?_some hpk
  have hwf : pk'.WellFormed := Constraint.wellFormed_of_key hkey ⟨c, hcont c hc⟩
    (hnd (hready.keyNodup pk (List.mem_of_find?_eq_some hpk) hpk₀))
  exact ConstraintsSound.replaceKey hready.others hready.onePrimaryKey hwf hkey
    (Table.keyNotRestated_of_uniqueRestatingKey? (countP_replaceKey hready.onePrimaryKey hkey)
      (Table.uniqueRestatingKey?_of_ensureKeyNotRestated hchk))

/-! ## Propagation -/

/-- A dependent of a propagation round: its new mappings, then its key grown by the holder
columns created, when there are any. -/
theorem keepsKeys_propagateDependent (sid pid : Id) (keys : List Id)
    (acc : List (Id × List Id) × List (Id × Id) × Nat) (dependent : Id × Id) :
    Keeps Database.KeepsKeysSound (propagateDependent sid pid keys acc dependent) := by
  unfold propagateDependent propagateInto
  dsimp only
  refine Keeps.bind (Keeps.foldlM (keepsKeys_propagateKey sid pid _ _) _ _) fun added => ?_
  split
  · exact Keeps.pure _
  · next hne =>
    have hadded : added ≠ [] := by simpa using hne
    refine Keeps.bind (keepsKeys_addToPrimaryKey _ _ hadded) fun _ =>
      Keeps.bind (keeps_emit _).of_eq fun _ => ?_
    exact Keeps.pure _

theorem keepsKeys_propagateKeys (sid pid : Id) (keys : List Id) :
    Keeps Database.KeepsKeysSound (propagateKeys sid pid keys) :=
  keeps_propagateKeys_of_dependent (keepsKeys_propagateDependent sid) pid keys

/-! ## Removals and changes in place -/

theorem keepsKeys_dropMapping (sid hid rid fk key : Id) :
    Keeps Database.KeepsKeysSound (dropMapping sid hid rid fk key) := by
  refine keeps_dropMapping_of (fun _ => keepsFrom_putTable_keys fun h => ?_) fun _ =>
    keepsFrom_putTable_keys fun h => ?_
  · exact h.stripRelationship _ _ fun r hr => hr.renumber_filter _
  · exact (h.stripRelationship _ _ fun r hr => hr.renumber_filter _).detachColumn fk

theorem keepsKeys_cascadeKeyRemoval (sid : Id) (seeds : List (Id × Id)) (survive : Bool) :
    Keeps Database.KeepsKeysSound (cascadeKeyRemoval sid seeds survive) :=
  keeps_cascadeKeyRemoval_of (keepsKeys_dropMapping sid) seeds survive

theorem keepsKeys_detachAll (sid hid : Id) (cs : List Id) :
    Keeps Database.KeepsKeysSound
      (modifyTable sid hid fun t => cs.foldl (fun t c => (t.detachColumn c).1) t) :=
  keeps_modifyTable_keys fun _ h => Table.KeysSound.foldl_detachColumn cs h

theorem keepsKeys_releaseFkColumns (sid hid : Id) (fks : List Id) :
    Keeps Database.KeepsKeysSound (releaseFkColumns sid hid fks) :=
  keeps_releaseFkColumns_of (keepsKeys_dropMapping sid) (keepsKeys_detachAll sid) hid fks

theorem keepsKeys_deleteRelationship (sid rid : Id) :
    Keeps Database.KeepsKeysSound (deleteRelationship sid rid) :=
  keeps_deleteRelationship_of (keepsKeys_dropMapping sid) (keepsKeys_detachAll sid)
    (fun _ _ _ => keepsFrom_putTable_keys fun h => h.eraseRelationship _) rid

theorem keepsKeys_removeFromPrimaryKey (sid tid : Id) (cs : List Id) :
    Keeps Database.KeepsKeysSound (removeFromPrimaryKey sid tid cs) := by
  unfold removeFromPrimaryKey
  exact keeps_modifyTable_keys fun _ h => h.removeKeyColumns cs

theorem keepsKeys_modifyRelationship (sid rid : Id) {f : Relationship → Relationship}
    (hf : ∀ r, (f r).columns = r.columns) :
    Keeps Database.KeepsKeysSound (modifyRelationship sid rid f) :=
  keeps_modifyRelationship_of fun _ _ => keepsFrom_putTable_keys fun h =>
    h.withRelationships (forall_mem_updateFirst h.mapsOnce fun r hr =>
      (h.mapsOnce r (List.mem_of_find?_eq_some hr)).of_columns (hf r))

theorem keepsKeys_mirrorTypeChange (sid tid cid : Id) (dataType : Option String)
    (ls : Option LengthScale) :
    Keeps Database.KeepsKeysSound (mirrorTypeChange sid tid cid dataType ls) :=
  keeps_mirrorTypeChange_of dataType ls (fun _ _ => keeps_modifyTable_keys fun _ h =>
    h.of_keys_eq rfl rfl rfl) tid cid

end EditM

end SchemaDesign
