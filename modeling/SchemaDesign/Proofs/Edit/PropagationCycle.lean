import SchemaDesign.Proofs.Edit.PropagationRounds

/-!
# Key propagation round an identifying cycle

When the identifying relationships of a schema form a cycle, key propagation does not end: a column
copied into a table of the cycle becomes a key column of that table, so it is copied on round the
cycle, and the visited pairs never stop it, since each pair queued names a column just minted. The
loop's fuel (`Schema.propagationFuel`) is more than a run is ever given time for; in the logic,
where it runs out, the edit is refused.

The invariant is that a table of the cycle is queued with a key column no relationship maps yet
(`Database.Owes`), over a queue of distinct columns (`Database.QueuesColumns`). A dependent keeps
both, and a dependent on the cycle that does not map a key column of the round takes the debt on
(`propagateDependent_owes`); a round passes the debt on (`propagateRound_owes`); so no fuel empties
the queue (`propagateLoop_owes`).

Main statement `propagateKeys_refused_on_cycle`: propagating distinct key columns of a table on an
identifying cycle, one of which nothing maps yet, ends in a refusal.
-/

namespace SchemaDesign

/-- Tables each of which a table of the list depends on through an identifying relationship: the
tables of one or more cycles. -/
def Schema.IdentifyingCycle (s : Schema) (T : List Id) : Prop :=
  ∀ P ∈ T, ∃ d ∈ s.dependents P, d.1 ∈ T

instance (s : Schema) (T : List Id) : Decidable (s.IdentifyingCycle T) :=
  inferInstanceAs (Decidable (∀ P ∈ T, ∃ d ∈ s.dependents P, d.1 ∈ T))

/-! ## Mapped columns -/

/-- The relationship `rid` of table `hid` is found and maps the provider column `k`. -/
def Database.Maps (sid hid rid k : Id) (db : Database) : Prop :=
  ∃ t r, db.FindsTable sid hid t ∧ t.relationship? rid = some r ∧ r.mapsPkColumn k

/-- `c` is a column of some table of schema `sid`. -/
def Database.IsColumn (sid c : Id) (db : Database) : Prop :=
  ∃ tid, db.HasColumn sid tid c

namespace Database

variable {New : Id → Id → KeyMapping → Prop} {db db' : Database} {sid hid rid k : Id}

theorem Maps.mem_mentionedIds (h : db.Maps sid hid rid k) : k ∈ db.mentionedIds := by
  obtain ⟨t, r, ht, hr, hmaps⟩ := h
  simp only [Relationship.mapsPkColumn, List.any_eq_true, decide_eq_true_eq] at hmaps
  obtain ⟨m, hm, rfl⟩ := hmaps
  exact ht.mentionedIds_subset (Table.mentions_pkColumn (List.mem_of_find?_eq_some hr) hm)

theorem IsColumn.mem_mentionedIds (h : db.IsColumn sid k) : k ∈ db.mentionedIds := by
  obtain ⟨tid, t, ht, hk⟩ := h
  obtain ⟨c, hc, rfl⟩ := List.mem_map.1 hk
  exact ht.mentionedIds_subset (Table.mentions_column hc)

theorem Maps.of_growsBy (hm : db.Maps sid hid rid k) (h : db.Tablewise (Table.GrowsBy New) db') :
    db'.Maps sid hid rid k := by
  obtain ⟨t, r, ht, hr, hmaps⟩ := hm
  obtain ⟨t', ht', hg⟩ := Tablewise.findsTable_left (fun _ _ h => h.id) h ht
  obtain ⟨r', hr', hext⟩ := hg.relationship?_left hr
  refine ⟨t', r', ht', hr', ?_⟩
  simp only [Relationship.mapsPkColumn, List.any_eq_true] at hmaps ⊢
  obtain ⟨m, hm, hpk⟩ := hmaps
  exact ⟨m, hext.columns hm, hpk⟩

/-- A relationship that maps `k` after a growth and not before gained a mapping of `k`. -/
theorem Maps.new_of_growsBy (hm : db'.Maps sid hid rid k) (hnot : ¬db.Maps sid hid rid k)
    (h : db.Tablewise (Table.GrowsBy New) db') : ∃ m, m.pkColumnId = k ∧ New hid rid m := by
  obtain ⟨t', r', ht', hr', hmaps⟩ := hm
  obtain ⟨t, r, ht, -, hr, hext, hnew⟩ := h.growsBy_lookup ht' hr'
  simp only [Relationship.mapsPkColumn, List.any_eq_true, decide_eq_true_eq] at hmaps
  obtain ⟨m, hm, hpk⟩ := hmaps
  refine ⟨m, hpk, hnew m hm fun hmr => hnot ⟨t, r, ht, hr, ?_⟩⟩
  simp only [Relationship.mapsPkColumn, List.any_eq_true, decide_eq_true_eq]
  exact ⟨m, hmr, hpk⟩

theorem not_maps_of_growsBy (hnot : ¬db.Maps sid hid rid k)
    (h : db.Tablewise (Table.GrowsBy New) db') (hnew : ∀ m, New hid rid m → m.pkColumnId ≠ k) :
    ¬db'.Maps sid hid rid k := fun hm => by
  obtain ⟨m, hpk, hm⟩ := hm.new_of_growsBy hnot h
  exact hnew m hm hpk

/-- A column no relationship of the schema maps. -/
theorem not_maps_of_schema {s : Schema} (hs : db.schema? sid = some s)
    (h : ∀ t ∈ s.tables, ∀ r ∈ t.relationships, r.mapsPkColumn k = false) :
    ¬db.Maps sid hid rid k := by
  rintro ⟨t, r, ⟨s', hs', ht⟩, hr, hm⟩
  rw [hs, Option.some.injEq] at hs'
  subst hs'
  rw [h t (List.mem_of_find?_eq_some ht) r (List.mem_of_find?_eq_some hr)] at hm
  exact Bool.false_ne_true hm

theorem IsColumn.of_extends (hc : db.IsColumn sid k) (h : db.Extends db') : db'.IsColumn sid k := by
  obtain ⟨tid, t, ht, hk⟩ := hc
  obtain ⟨t', ht', hext⟩ := Tablewise.findsTable_left (fun _ _ h => h.id) h ht
  exact ⟨tid, t', ht', hext.columns.subset hk⟩

end Database

theorem Database.Tablewise.mem_dependents {db db' : Database} {sid : Id}
    {New : Id → Id → KeyMapping → Prop} {s s' : Schema} (h : db.Tablewise (Table.GrowsBy New) db')
    (hs : db.schema? sid = some s) (hs' : db'.schema? sid = some s') {X : Id} {d : Id × Id}
    (hd : d ∈ s.dependents X) : d ∈ s'.dependents X := by
  simp only [Schema.dependents, List.mem_map, List.mem_filter] at hd ⊢
  obtain ⟨r, ⟨hr, hkind⟩, rfl⟩ := hd
  obtain ⟨s₁, r', hs₁, hr', hext⟩ := h.referencing hs hr
  rw [hs', Option.some.injEq] at hs₁
  subst hs₁
  refine ⟨r', ⟨hr', ?_⟩, by rw [hext.fkTableId, hext.id]⟩
  simpa [Relationship.isIdentifying, hext.kind, hext.fkTableId] using hkind

/-! ## The queue -/

/-- A queue of key propagation whose key columns are distinct columns, as are the columns of its
visited pairs. -/
structure Database.QueuesColumns (sid : Id) (db : Database) (work : List (Id × List Id))
    (visited : List (Id × Id)) : Prop where
  nodup : (work.flatMap Prod.snd).Nodup
  columns : ∀ k ∈ work.flatMap Prod.snd, db.IsColumn sid k
  visited : ∀ p ∈ visited, db.IsColumn sid p.2

/-- Some table of `T` is queued with a key column that no relationship maps yet. -/
def Database.Owes (sid : Id) (T : List Id) (db : Database) (work : List (Id × List Id)) : Prop :=
  ∃ e ∈ work, e.1 ∈ T ∧ ∃ k ∈ e.2, ∀ Q i, ¬db.Maps sid Q i k

namespace Database

variable {sid : Id} {db db' : Database} {work : List (Id × List Id)} {visited : List (Id × Id)}

theorem Tablewise.schema?_left {T : Table → Table → Prop} (h : db.Tablewise T db') {s : Schema}
    (hs : db.schema? sid = some s) : ∃ s', db'.schema? sid = some s' := by
  have hsid : ∀ s' s : Schema, s'.id = s.id ∧ List.Forall₂ T s.tables s'.tables →
      decide (s.id = sid) = decide (s'.id = sid) := fun _ _ hs => by rw [hs.1]
  obtain ⟨s', hs', -⟩ := forall₂_find? hsid h.2.flip hs
  exact ⟨s', hs'⟩

theorem QueuesColumns.of_extends (hq : db.QueuesColumns sid work visited) (h : db.Extends db') :
    db'.QueuesColumns sid work visited :=
  ⟨hq.nodup, fun k hk => (hq.columns k hk).of_extends h, fun p hp => (hq.visited p hp).of_extends h⟩

theorem QueuesColumns.tail {p : Id × List Id} (hq : db.QueuesColumns sid (p :: work) visited) :
    db.QueuesColumns sid work visited := by
  have hqueue : (p :: work).flatMap Prod.snd = p.2 ++ work.flatMap Prod.snd := List.flatMap_cons
  exact ⟨(List.nodup_append.1 (hqueue ▸ hq.nodup)).2.1,
    fun k hk => hq.columns k (hqueue ▸ List.mem_append_right _ hk), hq.visited⟩

/-- Queuing columns minted since, with the pairs visiting them. -/
theorem QueuesColumns.enqueue (hq : db.QueuesColumns sid work visited) (h : db.Extends db')
    {H : Id} {new : List Id} (hnd : new.Nodup)
    (hnew : ∀ fk ∈ new, ¬db.IsColumn sid fk ∧ db'.IsColumn sid fk) :
    db'.QueuesColumns sid (work ++ [(H, new)]) (visited ++ new.map fun c => (H, c)) := by
  refine ⟨?_, fun k hk => ?_, fun p hp => ?_⟩
  · rw [List.flatMap_append, List.flatMap_singleton]
    exact List.nodup_append.2 ⟨hq.nodup, hnd, fun k hk fk hfk heq =>
      (hnew fk hfk).1 (heq ▸ hq.columns k hk)⟩
  · rw [List.flatMap_append, List.flatMap_singleton] at hk
    rcases List.mem_append.1 hk with hk | hk
    · exact (hq.columns k hk).of_extends h
    · exact (hnew k hk).2
  · rcases List.mem_append.1 hp with hp | hp
    · exact (hq.visited p hp).of_extends h
    · obtain ⟨c, hc, rfl⟩ := List.mem_map.1 hp
      exact (hnew c hc).2

end Database

/-! ## Copies -/

namespace EditM

variable {sid : Id}

/-- Copying the key column `key` of `X` into the relationship `rid` of `H` leaves it mapped:
either it was already, and nothing changes, or it is mapped onto a column just minted, which the
holder now has. -/
theorem propagateKey_copies {X H rid key : Id} {added added' : List Id} {st st' : Session}
    (h : (propagateKey sid X H rid added key).run st = .ok added' st') :
    st'.db.Maps sid H rid key ∧ ((added' = added ∧ st' = st) ∨
      ∃ fk, added' = added ++ [fk] ∧ fk ∉ st.db.mentionedIds ∧ st'.db.IsColumn sid fk ∧
        st.db.Tablewise (Table.GrowsBy fun tid i m =>
          tid = H ∧ i = rid ∧ m.fkColumnId = fk ∧ m.pkColumnId = key) st'.db ∧
        st.db.Extends st'.db) := by
  unfold propagateKey at h
  obtain ⟨holder, st₁, h₁, h₂⟩ := run_bind_ok h
  obtain ⟨rfl, hholder⟩ := table_run h₁
  dsimp only at h₂
  split at h₂ <;> split at h₂
  next r hr hmapped =>
    obtain ⟨rfl, rfl⟩ := pure_run h₂
    exact ⟨⟨holder, r, hholder, hr, hmapped⟩, .inl ⟨rfl, rfl⟩⟩
  case h_2.isTrue => exact absurd ‹false = true› Bool.false_ne_true
  all_goals
    obtain ⟨spec, st₂, h₃, h₄⟩ := run_bind_ok h₂
    obtain ⟨fk, st₃, h₅, h₆⟩ := run_bind_ok h₄
    obtain ⟨rfl, rfl⟩ := pure_run h₆
    obtain ⟨hdb₂, -, hpk, -, hfresh⟩ := freshSpec_run h₃
    obtain ⟨rfl, -, P, source, H', -, -, hH', hrel, -, hdb₃⟩ := attachForeignKey_run h₅
    have hgrow : st₂.db.Tablewise (Table.GrowsBy fun tid i m =>
        tid = H ∧ i = rid ∧ m.fkColumnId = spec.fkColumnId ∧ m.pkColumnId = key) st₃.db :=
      attachForeignKey_growsBy_of sid H rid X spec (fun _ => ⟨rfl, rfl, rfl, hpk⟩) _ _ _ h₅
    obtain ⟨r₀, hr₀⟩ := Option.isSome_iff_exists.1 hrel
    obtain ⟨t', ht', hg⟩ := Database.Tablewise.findsTable_left (fun _ _ h => h.id) hgrow hH'
    obtain ⟨r', hr', -⟩ := hg.relationship?_left hr₀
    have hmaps := attachForeignKey_ensures sid H rid X spec _ _ _ h₅ t' ht' r' hr'
    rw [hpk] at hmaps
    -- the minted column is mentioned nowhere, so the holder appends it
    have hnone : H'.column? spec.fkColumnId = none :=
      Table.column?_eq_none fun hm => hfresh (by rw [← hdb₂]; exact hH'.mentionedIds_subset hm)
    have hfound : st₃.db.FindsTable sid H (H'.attachKey st₂.config.naming.column.max P.name source
        rid spec) := by
      rw [hdb₃]
      exact (Database.findsTable_updateTable (fun _ h => by rw [Table.attachKey_id, h])).2
        ⟨H', hH', rfl⟩
    have hcol : st₃.db.IsColumn sid spec.fkColumnId := by
      refine ⟨H, _, hfound, ?_⟩
      rw [Table.attachKey_columnIds, hnone]
      simp
    have hext := extends_attachForeignKey sid H rid X spec _ _ _ h₅
    rw [hdb₂] at hgrow hext
    exact ⟨⟨t', r', ht', hr', hmaps⟩, .inr ⟨_, rfl, hfresh, hcol, hgrow, hext⟩⟩

/-- Copying the key columns `keys` into the relationship `rid` of `H` leaves each mapped, adds
mappings only of them, onto the columns `new` minted on the way; each of these is a column of the
holder afterwards, and nothing maps it. -/
theorem propagateInto_copies {X H rid : Id} :
    ∀ (keys added added' : List Id) (st st' : Session), (∀ k ∈ keys, st.db.IsColumn sid k) →
      (keys.foldlM (propagateKey sid X H rid) added).run st = .ok added' st' →
      (∀ k ∈ keys, st'.db.Maps sid H rid k) ∧ st.db.Extends st'.db ∧ ∃ new, added' = added ++ new ∧
        new.Nodup ∧ st.db.Tablewise (Table.GrowsBy fun tid i m =>
          tid = H ∧ i = rid ∧ m.fkColumnId ∈ new ∧ m.pkColumnId ∈ keys) st'.db ∧
        ∀ fk ∈ new, ¬st.db.IsColumn sid fk ∧ st'.db.IsColumn sid fk ∧
          ∀ Q i, ¬st'.db.Maps sid Q i fk
  | [], added, added', st, st', _, h => by
    obtain ⟨rfl, rfl⟩ := pure_run h
    exact ⟨by simp, Database.Tablewise.refl _, [], by simp, List.nodup_nil, Database.Tablewise.refl _,
      by simp⟩
  | k :: keys, added, added', st, st', hkeys, h => by
    rw [List.foldlM_cons] at h
    obtain ⟨added₁, st₁, h₁, h₂⟩ := run_bind_ok h
    obtain ⟨hk, hstep⟩ := propagateKey_copies h₁
    -- the step keeps every column, so the keys left are still columns
    have hext₁ : st.db.Extends st₁.db := by
      rcases hstep with ⟨-, rfl⟩ | ⟨_, -, -, -, -, hext⟩
      · exact Database.Tablewise.refl _
      · exact hext
    obtain ⟨hmaps, hext, new, rfl, hnd, hgrow, hnew⟩ := propagateInto_copies keys added₁ added' st₁ st'
      (fun k' hk' => (hkeys k' (List.mem_cons_of_mem _ hk')).of_extends hext₁) h₂
    refine ⟨?_, IsTrans.trans _ _ _ hext₁ hext, ?_⟩
    · rintro k' (_ | ⟨_, hk'⟩)
      · exact hk.of_growsBy hgrow
      · exact hmaps k' hk'
    rcases hstep with ⟨rfl, rfl⟩ | ⟨fk, rfl, hfresh, hcol, hgrow₁, -⟩
    · refine ⟨new, rfl, hnd, hgrow.mono fun _ _ hg => hg.mono fun _ _ _ hm =>
        ⟨hm.1, hm.2.1, hm.2.2.1, List.mem_cons_of_mem _ hm.2.2.2⟩, hnew⟩
    -- the minted column is none of the keys, which are columns, so no later step maps it
    have hfk : ∀ k' ∈ k :: keys, k' ≠ fk := fun k' hk' heq =>
      hfresh (heq ▸ (hkeys k' hk').mem_mentionedIds)
    refine ⟨fk :: new, by simp, List.nodup_cons.2 ⟨fun hin => (hnew fk hin).1 hcol, hnd⟩,
      IsTrans.trans _ _ _
      (hgrow₁.mono fun _ _ hg => hg.mono fun _ _ _ hm =>
        ⟨hm.1, hm.2.1, by simp [hm.2.2.1], by simp [hm.2.2.2]⟩)
      (hgrow.mono fun _ _ hg => hg.mono fun _ _ _ hm =>
        ⟨hm.1, hm.2.1, List.mem_cons_of_mem _ hm.2.2.1, List.mem_cons_of_mem _ hm.2.2.2⟩), ?_⟩
    rintro fk' (_ | ⟨_, hfk'⟩)
    · refine ⟨fun hc => hfresh hc.mem_mentionedIds, hcol.of_extends hext, fun Q i hm => ?_⟩
      have hnot₀ : ¬st.db.Maps sid Q i fk := fun hm₀ => hfresh hm₀.mem_mentionedIds
      have hnot₁ := Database.not_maps_of_growsBy hnot₀ hgrow₁ fun m hm heq =>
        hfk k List.mem_cons_self (hm.2.2.2.symm.trans heq)
      exact Database.not_maps_of_growsBy hnot₁ hgrow (fun m hm heq =>
        hfk m.pkColumnId (List.mem_cons_of_mem _ hm.2.2.2) heq) hm
    · obtain ⟨hnot, hcol', hnmaps⟩ := hnew fk' hfk'
      exact ⟨fun hc => hnot (hc.of_extends hext₁), hcol', hnmaps⟩

/-- A dependent `(H, rid)` of a round with key columns `fks`: it maps each of them afterwards,
through the columns `new` minted for it, which are queued with `H` and which nothing maps yet. -/
theorem propagateDependent_copies {X H rid : Id} {fks : List Id} {rest : List (Id × List Id)}
    {visited : List (Id × Id)} {count : Nat} {acc' : List (Id × List Id) × List (Id × Id) × Nat}
    {st st' : Session} (hfks : ∀ k ∈ fks, st.db.IsColumn sid k)
    (hvisited : ∀ p ∈ visited, st.db.IsColumn sid p.2)
    (h : (propagateDependent sid X fks (rest, visited, count) (H, rid)).run st = .ok acc' st') :
    (∀ k ∈ fks, st'.db.Maps sid H rid k) ∧ st.db.Extends st'.db ∧ ∃ new, new.Nodup ∧
      acc'.1 = (if new = [] then rest else rest ++ [(H, new)]) ∧
      acc'.2.1 = visited ++ new.map (fun c => (H, c)) ∧
      st.db.Tablewise (Table.GrowsBy fun tid i m =>
        tid = H ∧ i = rid ∧ m.fkColumnId ∈ new ∧ m.pkColumnId ∈ fks) st'.db ∧
      ∀ fk ∈ new, ¬st.db.IsColumn sid fk ∧ st'.db.IsColumn sid fk ∧
        ∀ Q i, ¬st'.db.Maps sid Q i fk := by
  unfold propagateDependent at h
  dsimp only at h
  obtain ⟨new, st₁, h₁, h₂⟩ := run_bind_ok h
  obtain ⟨hmaps, hext, _, rfl, hnd, hgrow, hnew⟩ := propagateInto_copies fks [] new st st₁ hfks h₁
  split at h₂
  next hempty =>
    obtain ⟨rfl, rfl⟩ := pure_run h₂
    have hnil : new = [] := by simpa using hempty
    subst hnil
    exact ⟨hmaps, hext, [], List.nodup_nil, by simp, by simp, hgrow, by simp⟩
  next hempty =>
    obtain ⟨_, st₂, h₃, h₄⟩ := run_bind_ok h₂
    obtain ⟨t, ks, ht, hdb₂, hkeys, -⟩ := addToPrimaryKey_run h₃
    obtain ⟨_, st₃, h₅, h₆⟩ := run_bind_ok h₄
    -- the minted columns were no columns before, so none of them is visited
    have hunvisited : ∀ c ∈ new, (H, c) ∉ visited := fun c hc hmem =>
      (hnew c hc).1 (hvisited _ hmem)
    rw [foldl_queue_fresh _ _ _ hnd hunvisited] at h₆
    obtain ⟨rfl, rfl⟩ := pure_run h₆
    have hgrow₂ : st₁.db.Tablewise (Table.GrowsBy fun _ _ _ => False) st₃.db := by
      obtain ⟨s, hs, hts⟩ := ht
      rw [emit_run h₅, hdb₂]
      exact tablewise_updateTable hs hts (Table.growsBy_of_rels_eq rfl rfl hkeys)
    have hext₂ : st₁.db.Extends st₃.db := by
      rw [emit_run h₅]
      exact extends_addToPrimaryKey sid H new _ _ _ h₃
    have hne : new ≠ [] := fun hnil => hempty (by simp [hnil])
    refine ⟨fun k hk => (hmaps k hk).of_growsBy hgrow₂, IsTrans.trans _ _ _ hext hext₂, new, hnd,
      by simp [hne], by simp, IsTrans.trans _ _ _ hgrow
        (hgrow₂.mono fun _ _ hg => hg.mono fun _ _ _ hm => hm.elim), fun fk hfk => ?_⟩
    obtain ⟨hnot, hcol, hnmaps⟩ := hnew fk hfk
    exact ⟨hnot, hcol.of_extends hext₂, fun Q i =>
      Database.not_maps_of_growsBy (hnmaps Q i) hgrow₂ fun _ hm => hm.elim⟩

/-! ## The debt goes round -/

/-- A dependent keeps the queue's columns distinct. A table of `T` left owing a key column
still owes it, since the dependent maps only the round's keys, which are not queued again; and
the dependent `d`, when it does not map a round's key yet, leaves its holder owing a column
minted for that key. -/
theorem propagateDependent_owes {T : List Id} {X : Id} {fks : List Id}
    {acc acc' : List (Id × List Id) × List (Id × Id) × Nat} {d : Id × Id} {st st' : Session}
    (hq : st.db.QueuesColumns sid ((X, fks) :: acc.1) acc.2.1)
    (h : (propagateDependent sid X fks acc d).run st = .ok acc' st') :
    st'.db.QueuesColumns sid ((X, fks) :: acc'.1) acc'.2.1 ∧
      st.db.Tablewise (Table.GrowsBy fun _ _ _ => True) st'.db ∧
      (st.db.Owes sid T acc.1 → st'.db.Owes sid T acc'.1) ∧
      (d.1 ∈ T → ∀ k ∈ fks, ¬st.db.Maps sid d.1 d.2 k → st'.db.Owes sid T acc'.1) ∧
      ∀ Q i k, (Q, i) ≠ d → ¬st.db.Maps sid Q i k → ¬st'.db.Maps sid Q i k := by
  obtain ⟨rest, visited, count⟩ := acc
  obtain ⟨H, rid⟩ := d
  have hqueue : ((X, fks) :: rest).flatMap Prod.snd = fks ++ rest.flatMap Prod.snd :=
    List.flatMap_cons
  have hfks : ∀ k ∈ fks, st.db.IsColumn sid k := fun k hk =>
    hq.columns k (hqueue ▸ List.mem_append_left _ hk)
  obtain ⟨hmaps, hext, new, hnd, hrest, hvis, hgrow, hnew⟩ := propagateDependent_copies hfks hq.visited h
  have hkept : ∀ e ∈ rest, e ∈ acc'.1 := fun e he => by
    rw [hrest]
    split <;> simp [he]
  refine ⟨?_, hgrow.mono fun _ _ hg => hg.mono fun _ _ _ _ => trivial, ?_, ?_, ?_⟩
  · rw [hrest, hvis]
    split
    next hnil =>
      subst hnil
      simpa using hq.of_extends hext
    next => exact hq.enqueue hext hnd fun fk hfk => ⟨(hnew fk hfk).1, (hnew fk hfk).2.1⟩
  · -- an owed key column is queued after the round's keys, so it is none of them
    rintro ⟨e, he, heT, k, hk, hfree⟩
    have hk' : k ∉ fks := fun hkf => (List.nodup_append.1 (hqueue ▸ hq.nodup)).2.2 k hkf k
      (List.mem_flatMap.2 ⟨e, he, hk⟩) rfl
    exact ⟨e, hkept e he, heT, k, hk, fun Q i => Database.not_maps_of_growsBy (hfree Q i) hgrow
      fun m hm heq => hk' (heq ▸ hm.2.2.2)⟩
  · intro hH k hk hnot
    obtain ⟨m, hpk, hm⟩ := (hmaps k hk).new_of_growsBy hnot hgrow
    have hne : new ≠ [] := List.ne_nil_of_mem hm.2.2.1
    refine ⟨(H, new), by simp [hrest, hne], hH, m.fkColumnId, hm.2.2.1, (hnew _ hm.2.2.1).2.2⟩
  · intro Q i k hQi hnot
    exact Database.not_maps_of_growsBy hnot hgrow fun m hm _ => hQi (by rw [hm.1, hm.2.1])

/-- A round over dependents `ds` of `X` ends with a table of `T` owing a key column, if one did at
the start or one of `ds` is a table of `T` that does not map a key column of the round. -/
theorem propagateRound_owes {T : List Id} {X : Id} {fks : List Id} (ds : List (Id × Id)) :
    ∀ {acc acc' : List (Id × List Id) × List (Id × Id) × Nat} {st st' : Session},
      st.db.QueuesColumns sid ((X, fks) :: acc.1) acc.2.1 →
      (st.db.Owes sid T acc.1 ∨ ∃ d ∈ ds, d.1 ∈ T ∧ ∃ k ∈ fks, ¬st.db.Maps sid d.1 d.2 k) →
      (ds.foldlM (propagateDependent sid X fks) acc).run st = .ok acc' st' →
      st'.db.QueuesColumns sid ((X, fks) :: acc'.1) acc'.2.1 ∧ st'.db.Owes sid T acc'.1 ∧
        st.db.Tablewise (Table.GrowsBy fun _ _ _ => True) st'.db := by
  induction ds with
  | nil =>
    intro acc acc' st st' hq howes h
    obtain ⟨rfl, rfl⟩ := pure_run h
    exact ⟨hq, howes.resolve_right (by simp), Database.Tablewise.refl _⟩
  | cons d ds ih =>
    intro acc acc' st st' hq howes h
    rw [List.foldlM_cons] at h
    obtain ⟨acc₁, st₁, h₁, h₂⟩ := run_bind_ok h
    obtain ⟨hq₁, hgrow₁, hkeep, hcopy, hframe⟩ := propagateDependent_owes (T := T) hq h₁
    -- the debt is kept, or `d` takes it on, or a later dependent still has it to take
    have howes₁ : st₁.db.Owes sid T acc₁.1 ∨
        ∃ d' ∈ ds, d'.1 ∈ T ∧ ∃ k ∈ fks, ¬st₁.db.Maps sid d'.1 d'.2 k := by
      rcases howes with howes | ⟨d', hd', hT, k, hk, hnot⟩
      · exact .inl (hkeep howes)
      by_cases hdd : d' = d
      · subst hdd
        exact .inl (hcopy hT k hk hnot)
      · exact .inr ⟨d', (List.mem_cons.1 hd').resolve_left hdd, hT, k, hk, hframe _ _ _ hdd hnot⟩
    obtain ⟨hq', howes', hgrow'⟩ := ih hq₁ howes₁ h₂
    exact ⟨hq', howes', IsTrans.trans _ _ _ hgrow₁ hgrow'⟩

/-- On a schema where the tables `T` form an identifying cycle, a queue owing a key column to a
table of `T` is never emptied: every round passes the debt on to a table of `T`, so the loop runs
out of whatever fuel it is given and never succeeds. -/
theorem propagateLoop_owes {T : List Id} (fuel : Nat) :
    ∀ {work : List (Id × List Id)} {visited : List (Id × Id)} {count n : Nat} {st st' : Session},
      (∃ s, st.db.schema? sid = some s ∧ s.IdentifyingCycle T) →
      st.db.QueuesColumns sid work visited → st.db.Owes sid T work →
      (propagateLoop sid fuel work visited count).run st ≠ .ok n st' := by
  induction fuel with
  | zero =>
    rintro work visited count n st st' - - ⟨e, he, -⟩ h
    obtain ⟨⟨X, fks⟩, rest, rfl⟩ := List.exists_cons_of_ne_nil (List.ne_nil_of_mem he)
    rw [propagateLoop] at h
    obtain ⟨s, st₁, -, h₂⟩ := run_bind_ok h
    exact throw_run h₂
  | succ fuel ih =>
    rintro work visited count n st st' ⟨s₀, hs₀, hcycle⟩ hq ⟨e, he, heT, k, hk, hfree⟩ h
    obtain ⟨⟨X, fks⟩, rest, rfl⟩ := List.exists_cons_of_ne_nil (List.ne_nil_of_mem he)
    rw [propagateLoop] at h
    obtain ⟨s, st₁, h₁, h₂⟩ := run_bind_ok h
    obtain ⟨hst₁, hs⟩ := schema_run h₁
    subst st₁
    rw [hs₀, Option.some.injEq] at hs
    subst hs
    dsimp only at h₂
    obtain ⟨acc, st₂, h₃, h₄⟩ := run_bind_ok h₂
    rw [show ((s₀.referencing X).filter fun r => r.isIdentifying && r.fkTableId ≠ X).map
      (fun r => (r.fkTableId, r.id)) = s₀.dependents X from rfl] at h₃
    -- the debt is in the rest of the queue, or it is the head's, and the cycle gives the head a
    -- dependent in `T`, which no relationship yet maps the owed key into
    have howes : st.db.Owes sid T rest ∨
        ∃ d ∈ s₀.dependents X, d.1 ∈ T ∧ ∃ k ∈ fks, ¬st.db.Maps sid d.1 d.2 k := by
      rcases List.mem_cons.1 he with rfl | he
      · obtain ⟨d, hd, hdT⟩ := hcycle _ heT
        exact .inr ⟨d, hd, hdT, k, hk, hfree _ _⟩
      · exact .inl ⟨e, he, heT, k, hk, hfree⟩
    obtain ⟨hq₂, howes₂, hgrow⟩ := propagateRound_owes (s₀.dependents X) hq howes h₃
    obtain ⟨s₂, hs₂⟩ := hgrow.schema?_left hs₀
    have hcycle₂ : s₂.IdentifyingCycle T := fun P hP => by
      obtain ⟨d, hd, hdT⟩ := hcycle P hP
      exact ⟨d, hgrow.mem_dependents hs₀ hs₂ hd, hdT⟩
    exact ih ⟨s₂, hs₂, hcycle₂⟩ hq₂.tail howes₂ h₄

/-- Key propagation from new key columns `keys` of a table `X` on an identifying cycle `T`, one of
which no relationship maps yet, never succeeds: the copies go round the cycle for as long as the
loop's fuel lasts, and when it runs out the edit is refused. -/
theorem propagateKeys_refused_on_cycle {T : List Id} {s : Schema} {X : Id} {keys : List Id}
    {st : Session} (hs : st.db.schema? sid = some s) (hcycle : s.IdentifyingCycle T) (hX : X ∈ T)
    (hnd : keys.Nodup) (hcols : ∀ k ∈ keys, st.db.IsColumn sid k)
    (hfree : ∃ k ∈ keys, ∀ t ∈ s.tables, ∀ r ∈ t.relationships, r.mapsPkColumn k = false) :
    ∃ e st', (propagateKeys sid X keys).run st = .error e st' := by
  have hnever : ∀ n st', (propagateKeys sid X keys).run st ≠ .ok n st' := by
    intro n st' h
    unfold propagateKeys at h
    obtain ⟨s₁, st₁, h₁, h₂⟩ := run_bind_ok h
    obtain ⟨hst₁, -⟩ := schema_run h₁
    subst st₁
    obtain ⟨count, st₂, h₃, -⟩ := run_bind_ok h₂
    obtain ⟨k, hk, hunmapped⟩ := hfree
    have hstart : st.db.QueuesColumns sid [(X, keys)] (keys.map fun c => (X, c)) := by
      refine ⟨by simpa using hnd, by simpa using hcols, fun p hp => ?_⟩
      obtain ⟨c, hc, rfl⟩ := List.mem_map.1 hp
      exact hcols c hc
    exact propagateLoop_owes _ ⟨s, hs, hcycle⟩ hstart ⟨(X, keys), List.mem_singleton_self _, hX, k,
      hk, fun _ _ => Database.not_maps_of_schema hs hunmapped⟩ h₃
  cases hr : (propagateKeys sid X keys).run st with
  | ok n st' => exact absurd hr (hnever n st')
  | error e st' => exact ⟨e, st', rfl⟩

end EditM

/-- Tables `a` and `b` identifying each other: `a` maps its column `a1` onto `b1`, and `b` maps
`b1` onto `a1`; nothing maps the second column `a2` of `a`. -/
def mutuallyIdentified : Database :=
  ⟨⟨"db"⟩, [⟨⟨"s"⟩, ⟨"db"⟩, "s", .mysql, none, none, [
    ⟨⟨"a"⟩, ⟨"s"⟩, "a", none,
      [⟨⟨"a1"⟩, ⟨"a"⟩, "a1", 1, some "INT", none, false, none, none, none⟩,
        ⟨⟨"a2"⟩, ⟨"a"⟩, "a2", 2, some "INT", none, false, none, none, none⟩], [], [],
      [⟨⟨"ra"⟩, ⟨"a"⟩, ⟨"b"⟩, "ra", .identifying, .oneToMany, .noAction, .noAction,
        [⟨⟨"ma"⟩, ⟨"a1"⟩, ⟨"b1"⟩, 1⟩]⟩]⟩,
    ⟨⟨"b"⟩, ⟨"s"⟩, "b", none,
      [⟨⟨"b1"⟩, ⟨"b"⟩, "b1", 1, some "INT", none, false, none, none, none⟩], [], [],
      [⟨⟨"rb"⟩, ⟨"b"⟩, ⟨"a"⟩, "rb", .identifying, .oneToMany, .noAction, .noAction,
        [⟨⟨"mb"⟩, ⟨"b1"⟩, ⟨"a1"⟩, 1⟩]⟩]⟩]⟩]⟩

/-- Copying `a2`, made a key column of `a`, round the cycle of `a` and `b` is refused. -/
theorem EditM.mutuallyIdentified_propagation_refused :
    ∃ e st', (EditM.propagateKeys ⟨"s"⟩ ⟨"a"⟩ [⟨"a2"⟩]).run
      ⟨mutuallyIdentified, {}, { seed := 0 }, []⟩ = .error e st' :=
  EditM.propagateKeys_refused_on_cycle (T := [⟨"a"⟩, ⟨"b"⟩]) rfl (by decide) (by decide) (by decide)
    (fun k hk => by
      rw [List.mem_singleton.1 hk]
      exact ⟨⟨"a"⟩, _, ⟨_, rfl, rfl⟩, by decide⟩)
    ⟨⟨"a2"⟩, List.mem_singleton_self _, by decide⟩


end SchemaDesign
