import SchemaDesign.Proofs.Edit.PropagationLaw

/-!
# Rounds of key propagation

The runs of `propagateKeys` keep the invariant `Spreading`. Copying one key column into a
dependent relationship adds one sprout or nothing (`propagateKey_sprouts`); copying the round's
key columns adds one sprout for each that the relationship does not map (`propagateInto_sprouts`);
a dependent visited as a whole is a `Spreading.visit` (`propagateDependent_spreads`); a round
visits every dependent of its provider once (`propagateRound_spreads`); and the loop runs until
its queue is empty (`propagateLoop_spreads`), since each round makes the queue lighter
(`Schema.queueWeight_round`) and the fuel is more than the first queue weighs
(`Schema.queueWeight_start`).

Main statement `propagateKeys_spreads`: on a founded schema, propagation from distinct key columns
of a table ends with its queue empty, where `Spreading.law_of_nil` gives the law.
-/

namespace SchemaDesign

/-! ## The fuel -/

/-- A count of the items where `p` holds is below that of a weaker `q` that holds of one item
more. -/
theorem countP_lt_countP {α : Type} {p q : α → Bool} {l : List α} (h : ∀ x ∈ l, p x → q x)
    {x : α} (hx : x ∈ l) (hq : q x) (hp : ¬p x) : l.countP p < l.countP q := by
  rw [List.countP_eq_length_filter, List.countP_eq_length_filter]
  have hsub : (l.filter p).Sublist (l.filter q) := by
    have hpq : l.filter p = (l.filter q).filter p := by
      rw [List.filter_filter]
      refine List.filter_congr fun y hy => ?_
      cases hpy : p y with
      | false => rfl
      | true => simp [h y hy hpy]
    rw [hpq]
    exact List.filter_sublist
  refine lt_of_le_of_ne hsub.length_le fun hlen => hp ?_
  have hxq : x ∈ l.filter q := List.mem_filter.2 ⟨hx, hq⟩
  rw [← hsub.eq_of_length hlen] at hxq
  exact (List.mem_filter.1 hxq).2

open Classical in
/-- The number of tables that depend on `X`, directly or through others. -/
noncomputable def Schema.dependentCount (s : Schema) (X : Id) : Nat :=
  s.tables.countP fun t => Relation.TransGen s.DependsOn t.id X

/-- The weight of a queue: an entry weighs `(R + 1) ^ n`, for `R` the number of relationships and
`n` the number of tables depending on its table. -/
noncomputable def Schema.queueWeight (s : Schema) (work : List (Id × List Id)) : Nat :=
  (work.map fun p => (s.relationships.length + 1) ^ s.dependentCount p.1).sum

namespace Schema

variable {s : Schema}

/-- A table depending on `X` has fewer tables depending on it than `X`: those and itself depend
on `X`, and it does not depend on itself. -/
theorem dependentCount_lt (hL : s.Layered) {H X : Id} (hd : s.DependsOn H X) :
    s.dependentCount H < s.dependentCount X := by
  obtain ⟨t, ht, rfl⟩ := hd.exists_table
  unfold dependentCount
  refine countP_lt_countP (fun u _ hu => ?_) ht ?_ ?_
  · simp only [decide_eq_true_eq] at hu ⊢
    exact hu.tail hd
  · simpa using Relation.TransGen.single hd
  · simpa using hL.acyclic t.id

theorem queueWeight_cons (X : Id) (ks : List Id) (work : List (Id × List Id)) :
    s.queueWeight ((X, ks) :: work) =
      (s.relationships.length + 1) ^ s.dependentCount X + s.queueWeight work := by
  simp [queueWeight]

theorem queueWeight_append (work work' : List (Id × List Id)) :
    s.queueWeight (work ++ work') = s.queueWeight work + s.queueWeight work' := by
  simp [queueWeight]

/-- What a round of provider `X` queues, at most one entry per relationship and each for a table
depending on `X`, weighs less than the entry of `X`. -/
theorem queueWeight_lt_of_dependsOn (hL : s.Layered) {X : Id} {extra : List (Id × List Id)}
    (hlen : extra.length ≤ s.relationships.length) (hdep : ∀ e ∈ extra, s.DependsOn e.1 X) :
    s.queueWeight extra < (s.relationships.length + 1) ^ s.dependentCount X := by
  cases extra with
  | nil => simp [queueWeight]
  | cons e rest =>
    obtain ⟨n, hn⟩ : ∃ n, s.dependentCount X = n + 1 :=
      Nat.exists_eq_add_one_of_ne_zero
        (Nat.ne_zero_of_lt (dependentCount_lt hL (hdep e List.mem_cons_self)))
    have hterm : ∀ w ∈ (e :: rest).map fun p => (s.relationships.length + 1) ^ s.dependentCount p.1,
        w ≤ (s.relationships.length + 1) ^ n := by
      intro w hw
      obtain ⟨p, hp, rfl⟩ := List.mem_map.1 hw
      have hlt := dependentCount_lt hL (hdep p hp)
      exact Nat.pow_le_pow_right (by omega) (by omega)
    calc s.queueWeight (e :: rest)
        ≤ (e :: rest).length * (s.relationships.length + 1) ^ n := by
          simpa [queueWeight] using List.sum_le_card_nsmul _ _ hterm
      _ ≤ s.relationships.length * (s.relationships.length + 1) ^ n :=
          Nat.mul_le_mul_right _ hlen
      _ < (s.relationships.length + 1) * (s.relationships.length + 1) ^ n :=
          Nat.mul_lt_mul_of_pos_right (Nat.lt_succ_self _) (by positivity)
      _ = (s.relationships.length + 1) ^ s.dependentCount X := by rw [hn, pow_succ']

/-- A round makes the queue lighter: it takes the entry of its provider off and queues entries
of the provider's dependents, at most one per relationship. -/
theorem queueWeight_round (hL : s.Layered) {X : Id} {fks : List Id}
    {rest extra : List (Id × List Id)} (hlen : extra.length ≤ s.relationships.length)
    (hdep : ∀ e ∈ extra, s.DependsOn e.1 X) :
    s.queueWeight (rest ++ extra) < s.queueWeight ((X, fks) :: rest) := by
  have hlt := queueWeight_lt_of_dependsOn hL hlen hdep
  rw [queueWeight_append, queueWeight_cons]
  omega

/-- The first queue weighs no more than the fuel propagation is given. -/
theorem queueWeight_start (C : Id) (seeds : List Id) :
    s.queueWeight [(C, seeds)] ≤ s.propagationFuel := by
  have hcount : s.dependentCount C ≤ s.tables.length + 1 :=
    (List.countP_le_length).trans (Nat.le_succ _)
  rw [queueWeight_cons, propagationFuel]
  simpa [queueWeight] using Nat.le_add_right_of_le (Nat.pow_le_pow_right (Nat.succ_pos _) hcount)

theorem queueWeight_cons_pos (p : Id × List Id) (work : List (Id × List Id)) :
    0 < s.queueWeight (p :: work) := by
  rw [queueWeight, List.map_cons, List.sum_cons]
  positivity

end Schema

/-! ## Copying key columns into one relationship -/

/-- Related lists whose related items match alike: a lookup in the first finds an item related to
what the same lookup finds in the second. -/
theorem forall₂_find?_left {α β : Type} {r : α → β → Prop} {p : α → Bool} {q : β → Bool}
    (hpq : ∀ a b, r a b → q b = p a) {xs : List α} {ys : List β} (h : List.Forall₂ r xs ys)
    {x : α} (hx : xs.find? p = some x) : ∃ y, ys.find? q = some y ∧ r x y := by
  induction h with
  | nil => simp at hx
  | @cons a b xs ys hab hrest ih =>
    rw [List.find?_cons] at hx
    rw [List.find?_cons, hpq a b hab]
    cases hpa : p a
    · rw [hpa] at hx
      exact ih hx
    · rw [hpa] at hx
      cases hx
      exact ⟨b, rfl, hab⟩

section Runs

open EditM

variable {sid : Id} {s₀ : Schema} (hF : s₀.Founded) {t₀ : Table} (ht₀ : t₀ ∈ s₀.tables)
  {r₀ : Relationship} (hr₀ : r₀ ∈ t₀.relationships)

include hF ht₀ hr₀ in
/-- The relationship `r₀` in a grown snapshot: its table is found grown, and the relationship in
it grown by the sprouts into it. -/
theorem Database.Sprouted.relationship? {ys zs : List Sprout} {db : Database}
    (hdb : db.Sprouted sid s₀ ys zs) {H : Table} (hH : db.FindsTable sid t₀.id H) :
    Table.Sprouted ys zs t₀ H ∧ ∃ r, H.relationship? r₀.id = some r ∧
      Relationship.Sprouted (Sprout.inRelationship ys t₀.id r₀.id) r₀ r := by
  obtain ⟨t₀', ht₀', hsp⟩ := hdb.findsTable hH
  rw [Schema.table?_of_mem hF.layered.ids_nodup ht₀, Option.some.injEq] at ht₀'
  subst ht₀'
  refine ⟨hsp, ?_⟩
  have hfind : t₀.relationships.find? (fun r => r.id = r₀.id) = some r₀ :=
    find?_key_eq_of_mem (hF.relationshipIds t₀ ht₀) hr₀
  exact forall₂_find?_left (fun _ _ hab => by rw [hab.id]) hsp.relationships hfind

include hF ht₀ hr₀ in
/-- Copying key column `k` of provider `X` into the dependent relationship `r₀` of `t₀`: it was
mapped already, by `r₀` or by a sprout, and nothing changes; or one sprout maps it onto a new
column of `t₀`. -/
theorem propagateKey_sprouts {ys zs : List Sprout} {st st' : Session}
    (hdb : st.db.Sprouted sid s₀ ys zs) {X k : Id} {added added' : List Id}
    (h : (propagateKey sid X t₀.id r₀.id added k).run st = .ok added' st') :
    ((r₀.mapsPkColumn k = true ∨ k ∈ (Sprout.inRelationship ys t₀.id r₀.id).map (·.key)) ∧
      added' = added ∧ st' = st) ∨
    (r₀.mapsPkColumn k = false ∧ ∃ y : Sprout, y.table = t₀.id ∧ y.relationship = r₀.id ∧
      y.key = k ∧ added' = added ++ [y.column.id] ∧
      (y.column.id ∉ t₀.columns.map (·.id) ∧
        y.column.id ∉ (Sprout.inTable ys t₀.id).map (·.column.id) ∧
        t₀.isKeyColumn y.column.id = false) ∧
      st'.db.Sprouted sid s₀ (ys ++ [y]) zs) := by
  unfold propagateKey at h
  obtain ⟨H, st₁, h₁, h₂⟩ := run_bind_ok h
  obtain ⟨hst₁, hH⟩ := table_run h₁
  subst hst₁
  obtain ⟨hsp, r, hr, hsr⟩ := hdb.relationship? hF ht₀ hr₀ hH
  dsimp only at h₂
  rw [hr] at h₂
  dsimp only at h₂
  split at h₂
  next hmapped =>
    obtain ⟨rfl, rfl⟩ := pure_run h₂
    exact .inl ⟨(hsr.mapsPkColumn k).1 hmapped, rfl, rfl⟩
  next hmapped =>
    obtain ⟨spec, st₂, h₃, h₄⟩ := run_bind_ok h₂
    obtain ⟨hdb₂, -, hpk, -, hfresh⟩ := freshSpec_run h₃
    obtain ⟨fk, st₃, h₅, h₆⟩ := run_bind_ok h₄
    obtain ⟨rfl, rfl⟩ := pure_run h₆
    obtain ⟨hfk, -, P, source, H', -, -, hH', -, -, hdb₃⟩ := attachForeignKey_run h₅
    rw [hdb₂] at hH'
    have hHH : H' = H := hH'.unique hH
    subst hHH
    -- the holder column is mentioned nowhere, so it is new to the holder
    have hnew : spec.fkColumnId ∉ H'.mentionedIds := fun hm => hfresh (hH'.mentionedIds_subset hm)
    refine .inr ⟨?_, ⟨t₀.id, X, r₀.id, spec.mappingId, k, mirrorColumn source spec.fkColumnId t₀.id
      (spec.fkColumnName.getD (uniqueName (sanitize P.name ++ "_" ++ sanitize source.name)
        st₂.config.naming.column.max H'.columnNames))⟩, rfl, rfl, rfl, by rw [hfk]; rfl,
      hsp.not_mem_of_not_mentioned hnew, ?_⟩
    · cases hmaps : r₀.mapsPkColumn k with
      | false => rfl
      | true => exact absurd ((hsr.mapsPkColumn k).2 (.inl hmaps)) hmapped
    · rw [hdb₃, hdb₂]
      refine hdb.updateTable hF.layered.ids_nodup (fun t ht t' hid hfound hsp' => ?_)
        (fun t _ t' hid hsp' => ?_)
      · have htt : t = t₀ := List.inj_on_of_nodup_map hF.layered.ids_nodup ht ht₀ hid
        subst htt
        have htt' : t' = H' := hfound.unique hH'
        subst htt'
        exact hsp'.attachKey (hF.relationshipIds t ht) (Table.column?_eq_none hnew) rfl rfl
          hpk.symm rfl
      · rw [← List.append_nil zs]
        refine hsp'.append_other (fun y hy => ?_) (fun y hy => absurd hy List.not_mem_nil)
        rw [List.mem_singleton.1 hy]
        exact Ne.symm hid

include hF ht₀ hr₀ in
/-- Copying the key columns `keys` into the dependent relationship `r₀` of `t₀`, when no sprout
maps any of them yet: the sprouts `new` map, in order, those that `r₀` does not map, onto distinct
new columns of `t₀`. -/
theorem propagateInto_sprouts {zs : List Sprout} {X : Id} :
    ∀ (keys : List Id) (ys : List Sprout) (added added' : List Id) (st st' : Session),
      st.db.Sprouted sid s₀ ys zs → keys.Nodup →
      (∀ k ∈ keys, k ∉ (Sprout.inRelationship ys t₀.id r₀.id).map (·.key)) →
      (keys.foldlM (propagateKey sid X t₀.id r₀.id) added).run st = .ok added' st' →
      ∃ new : List Sprout, added' = added ++ new.map (·.column.id) ∧
        new.map (·.key) = keys.filter (fun k => !r₀.mapsPkColumn k) ∧
        (∀ y ∈ new, y.table = t₀.id ∧ y.relationship = r₀.id) ∧
        (new.map (·.column.id)).Nodup ∧
        (∀ y ∈ new, y.column.id ∉ t₀.columns.map (·.id) ∧
          y.column.id ∉ (Sprout.inTable ys t₀.id).map (·.column.id) ∧
          t₀.isKeyColumn y.column.id = false) ∧
        st'.db.Sprouted sid s₀ (ys ++ new) zs := by
  intro keys
  induction keys with
  | nil =>
    intro ys added added' st st' hdb _ _ h
    obtain ⟨rfl, rfl⟩ := pure_run h
    refine ⟨[], by simp, by simp, by simp, List.nodup_nil, by simp, by simpa using hdb⟩
  | cons k keys ih =>
    intro ys added added' st st' hdb hnd hfree h
    rw [List.nodup_cons] at hnd
    rw [List.foldlM_cons] at h
    obtain ⟨added₁, st₁, h₁, h₂⟩ := run_bind_ok h
    have hrest : ∀ k' ∈ keys, k' ∉ (Sprout.inRelationship ys t₀.id r₀.id).map (·.key) :=
      fun k' hk' => hfree k' (List.mem_cons_of_mem _ hk')
    rcases propagateKey_sprouts hF ht₀ hr₀ hdb h₁ with
      ⟨hmapped, rfl, rfl⟩ | ⟨hmaps, y, hyt, hyr, hyk, rfl, hyfresh, hdb₁⟩
    · -- no sprout maps `k`, so `r₀` does, and nothing changes
      have hmaps : r₀.mapsPkColumn k = true := hmapped.resolve_right (hfree k List.mem_cons_self)
      obtain ⟨new, rfl, hkeys, hnew, hcols, hfresh, hdb'⟩ := ih ys _ added' _ st' hdb hnd.2 hrest h₂
      refine ⟨new, rfl, ?_, hnew, hcols, hfresh, hdb'⟩
      rw [hkeys, List.filter_cons_of_neg (by simp [hmaps])]
    · -- one sprout for `k`, whose key is none of the rest
      have hfree₁ : ∀ k' ∈ keys,
          k' ∉ (Sprout.inRelationship (ys ++ [y]) t₀.id r₀.id).map (·.key) := by
        intro k' hk' hmem
        rw [Sprout.inRelationship_append, List.map_append, List.mem_append] at hmem
        rcases hmem with hmem | hmem
        · exact hrest k' hk' hmem
        · have hk : k' = k := by
            simpa [Sprout.inRelationship, hyt, hyr, hyk, eq_comm] using hmem
          exact hnd.1 (hk ▸ hk')
      obtain ⟨new, rfl, hkeys, hnew, hcols, hfresh, hdb'⟩ :=
        ih (ys ++ [y]) (added ++ [y.column.id]) added' st₁ st' hdb₁ hnd.2 hfree₁ h₂
      have hin : y.column.id ∈ (Sprout.inTable (ys ++ [y]) t₀.id).map (·.column.id) := by
        simp [Sprout.inTable, hyt]
      refine ⟨y :: new, by simp, ?_, ?_, ?_, ?_, by rwa [List.append_assoc, List.singleton_append] at hdb'⟩
      · rw [List.map_cons, hkeys, hyk, List.filter_cons_of_pos (by simp [hmaps])]
      · intro y' hy'
        rcases List.mem_cons.1 hy' with rfl | hy'
        · exact ⟨hyt, hyr⟩
        · exact hnew y' hy'
      · rw [List.map_cons, List.nodup_cons]
        refine ⟨fun hmem => ?_, hcols⟩
        obtain ⟨y', hy', heq⟩ := List.mem_map.1 hmem
        exact (hfresh y' hy').2.1 (heq ▸ hin)
      · intro y' hy'
        rcases List.mem_cons.1 hy' with rfl | hy'
        · exact hyfresh
        · obtain ⟨hcol, hsprout, hkey⟩ := hfresh y' hy'
          refine ⟨hcol, fun hm => hsprout ?_, hkey⟩
          rw [Sprout.inTable_append, List.map_append]
          exact List.mem_append_left _ hm

end Runs

/-! ## A dependent, a round, the loop -/

/-- Queuing columns none of which is queued with the holder yet: all of them are, in order. -/
theorem foldl_queue_fresh {H : Id} :
    ∀ (cs fresh : List Id) (visited : List (Id × Id)), cs.Nodup → (∀ c ∈ cs, (H, c) ∉ visited) →
      cs.foldl (fun (acc : List Id × List (Id × Id)) c =>
        if acc.2.contains (H, c) then acc else (acc.1 ++ [c], acc.2 ++ [(H, c)])) (fresh, visited) =
        (fresh ++ cs, visited ++ cs.map fun c => (H, c)) := by
  intro cs
  induction cs with
  | nil => simp
  | cons c cs ih =>
    intro fresh visited hnd hnot
    rw [List.nodup_cons] at hnd
    have hc : visited.contains (H, c) = false := by simpa using hnot c List.mem_cons_self
    rw [List.foldl_cons, hc, if_neg Bool.false_ne_true, ih (fresh ++ [c]) (visited ++ [(H, c)]) hnd.2]
    · simp
    · intro c' hc' hmem
      rcases List.mem_append.1 hmem with hmem | hmem
      · exact hnot c' (List.mem_cons_of_mem _ hc') hmem
      · obtain ⟨-, rfl⟩ := Prod.mk.inj (List.mem_singleton.1 hmem)
        exact hnd.1 hc'

variable {sid : Id} {s₀ : Schema} {C : Id} {seeds : List Id} {X : Id} {fks : List Id}

open EditM in
/-- A dependent visited as a whole keeps the invariant: the round's key columns it does not map
are copied into it, the holder columns made join the holder's key, and the holder is queued with
them, in one entry at most. -/
theorem propagateDependent_spreads (hF : s₀.Founded) {ys : List Sprout}
    {work : List (Id × List Id)} {visited : List (Id × Id)} {count : Nat} {done : List (Id × Id)}
    {st st' : Session} (h : Spreading sid s₀ C seeds ys work visited X fks done st.db)
    {d : Id × Id} (hd : d ∈ s₀.dependents X) (hnotdone : d ∉ done)
    {acc' : List (Id × List Id) × List (Id × Id) × Nat}
    (hrun : (propagateDependent sid X fks (work, visited, count) d).run st = .ok acc' st') :
    ∃ new extra, acc'.1 = work ++ extra ∧ extra.length ≤ 1 ∧
      (∀ e ∈ extra, s₀.DependsOn e.1 X) ∧
      Spreading sid s₀ C seeds (ys ++ new) acc'.1 acc'.2.1 X fks (done ++ [d]) st'.db := by
  have hdep := Schema.dependsOn_of_mem_dependents hF hd
  obtain ⟨t₀, ht₀, r₀, hr₀, hpk, hident, hne, rfl⟩ := (Schema.mem_dependents hF).1 hd
  unfold propagateDependent at hrun
  dsimp only at hrun
  obtain ⟨added, st₁, h₁, h₂⟩ := run_bind_ok hrun
  -- no sprout maps a key column of the round yet, since the dependent is not done
  have hfks : (queuedKeys work X ++ fks).Nodup := by simpa using h.once X
  have hfree : ∀ k ∈ fks, k ∉ (Sprout.inRelationship ys t₀.id r₀.id).map (·.key) :=
    fun k hk hmem => hnotdone ((((h.law t₀ ht₀ r₀ hr₀).2 k).1 hmem).2.2 hpk hk)
  obtain ⟨new, rfl, hkeys, hnew, hcols, hfresh, hdb₁⟩ := propagateInto_sprouts hF ht₀ hr₀ fks ys
    [] added st st₁ h.sprouted (List.nodup_append.1 hfks).2.1 hfree h₁
  rw [List.nil_append] at h₂
  split at h₂
  next hempty =>
    obtain ⟨rfl, rfl⟩ := pure_run h₂
    have hnil : new = [] := by simpa using hempty
    subst hnil
    refine ⟨[], [], by simp, by simp, by simp, ?_⟩
    simpa using h.visit hF ht₀ hr₀ hpk hident hne hnew hfresh hnotdone hkeys hcols
      (by simpa using hdb₁)
  next hempty =>
    obtain ⟨_, st₂, h₃, h₄⟩ := run_bind_ok h₂
    obtain ⟨t, ks, ht, hdb₂, hkeys₂⟩ := addToPrimaryKey_keys h₃
    obtain ⟨_, st₃, h₅, h₆⟩ := run_bind_ok h₄
    have hvisited : ∀ c ∈ new.map (·.column.id), (t₀.id, c) ∉ visited := fun c hc hmem =>
      Spreading.not_mem_gainedKeys_visit hF h ht₀ hr₀ hpk hident hfresh c hc (h.visited _ hmem)
    rw [foldl_queue_fresh _ _ _ hcols hvisited] at h₆
    obtain ⟨rfl, rfl⟩ := pure_run h₆
    have hne' : new ≠ [] := fun hnil => hempty (by simp [hnil])
    have hdb : st₃.db.Sprouted sid s₀ (ys ++ new) (ys ++ new) := by
      rw [emit_run h₅, hdb₂]
      refine hdb₁.updateTable hF.layered.ids_nodup (fun t' ht' t'' hid hfound hsp => ?_)
        (fun t' _ t'' hid hsp => ?_)
      · have htt : t' = t₀ := List.inj_on_of_nodup_map hF.layered.ids_nodup ht' ht₀ hid
        subst htt
        have htt' : t'' = t := hfound.unique ht
        subst htt'
        obtain ⟨y, hy⟩ := List.exists_mem_of_ne_nil _ hne'
        exact hsp.addKeys (fun y hy => (hnew y hy).1)
          ⟨y, List.mem_append_right _ hy, (hnew y hy).1⟩ hkeys₂
      · have hsp' : Table.Sprouted (ys ++ new ++ []) (ys ++ new) t' t'' :=
          hsp.append_other (fun y hy => absurd hy List.not_mem_nil) fun y hy => by
            rw [(hnew y hy).1]
            exact Ne.symm hid
        rwa [List.append_nil] at hsp'
    refine ⟨new, [(t₀.id, new.map (·.column.id))], by simp [hempty], by simp, ?_, ?_⟩
    · intro e he
      rw [List.mem_singleton.1 he]
      exact hdep
    · simpa only [List.nil_append, List.map_map, Function.comp_def] using
        h.visit hF ht₀ hr₀ hpk hident hne hnew hfresh hnotdone hkeys hcols hdb

open EditM in
/-- A round visits the dependents of its provider one after another: past those `done`, the
others `deps` visited, every dependent is done, and the queue has grown by one entry at most per
dependent, each for a table that depends on the provider. -/
theorem propagateRound_spreads (hF : s₀.Founded) :
    ∀ (deps done : List (Id × Id)) (ys : List Sprout)
      (acc acc' : List (Id × List Id) × List (Id × Id) × Nat) (st st' : Session),
      done ++ deps = s₀.dependents X →
      Spreading sid s₀ C seeds ys acc.1 acc.2.1 X fks done st.db →
      (deps.foldlM (propagateDependent sid X fks) acc).run st = .ok acc' st' →
      ∃ ys' extra, acc'.1 = acc.1 ++ extra ∧ extra.length ≤ deps.length ∧
        (∀ e ∈ extra, s₀.DependsOn e.1 X) ∧
        Spreading sid s₀ C seeds ys' acc'.1 acc'.2.1 X fks (s₀.dependents X) st'.db
  | [], done, ys, acc, acc', st, st', hdone, h, hrun => by
    obtain ⟨rfl, rfl⟩ := pure_run hrun
    rw [List.append_nil] at hdone
    exact ⟨ys, [], by simp, le_refl _, by simp, hdone ▸ h⟩
  | d :: deps, done, ys, ⟨work, visited, count⟩, acc', st, st', hdone, h, hrun => by
    rw [List.foldlM_cons] at hrun
    obtain ⟨acc₁, st₁, h₁, h₂⟩ := run_bind_ok hrun
    have hnd : (done ++ d :: deps).Nodup := hdone ▸ Schema.dependents_nodup hF X
    have hd : d ∈ s₀.dependents X := hdone ▸ List.mem_append_right _ List.mem_cons_self
    have hnotdone : d ∉ done := fun hmem =>
      (List.nodup_append.1 hnd).2.2 d hmem d List.mem_cons_self rfl
    obtain ⟨new, extra₁, hwork₁, hlen₁, hdep₁, h₁'⟩ := propagateDependent_spreads hF h hd hnotdone h₁
    obtain ⟨ys', extra₂, hwork₂, hlen₂, hdep₂, h₂'⟩ := propagateRound_spreads hF deps (done ++ [d])
      (ys ++ new) acc₁ acc' st₁ st' (by rw [List.append_assoc, List.singleton_append, hdone]) h₁' h₂
    refine ⟨ys', extra₁ ++ extra₂, by rw [hwork₂, hwork₁, List.append_assoc], ?_, ?_, h₂'⟩
    · rw [List.length_append, List.length_cons]
      omega
    · intro e he
      rcases List.mem_append.1 he with he | he
      · exact hdep₁ e he
      · exact hdep₂ e he

open EditM in
/-- The loop of key propagation keeps the invariant round after round until its queue is empty:
by induction on the fuel, which the queue's weight never exceeds. -/
theorem propagateLoop_spreads (hF : s₀.Founded) :
    ∀ (fuel : Nat) (work : List (Id × List Id)) (visited : List (Id × Id)) (count : Nat)
      (ys : List Sprout) (st : Session) (n : Nat) (st' : Session),
      s₀.queueWeight work ≤ fuel →
      Spreading sid s₀ C seeds ys work visited C [] [] st.db →
      (propagateLoop sid fuel work visited count).run st = .ok n st' →
      ∃ ys' visited', Spreading sid s₀ C seeds ys' [] visited' C [] [] st'.db
  | _, [], visited, _, ys, st, n, st', _, h, hrun => by
    rw [propagateLoop] at hrun
    obtain ⟨-, rfl⟩ := pure_run hrun
    exact ⟨ys, visited, h⟩
  | 0, p :: work, _, _, _, _, _, _, hweight, _, _ =>
    absurd hweight (Nat.not_le.2 (Schema.queueWeight_cons_pos p work))
  | fuel + 1, (X, fks) :: rest, visited, count, ys, st, n, st', hweight, h, hrun => by
    rw [propagateLoop] at hrun
    obtain ⟨s, st₁, h₁, h₂⟩ := run_bind_ok hrun
    obtain ⟨hst₁, hs⟩ := schema_run h₁
    subst st₁
    dsimp only at h₂
    obtain ⟨acc, st₂, h₃, h₄⟩ := run_bind_ok h₂
    have hdeps : s.dependents X = s₀.dependents X := h.sprouted.dependents hs X
    rw [show ((s.referencing X).filter fun r => r.isIdentifying && r.fkTableId ≠ X).map
      (fun r => (r.fkTableId, r.id)) = s.dependents X from rfl, hdeps] at h₃
    obtain ⟨ys₁, extra, hwork, hlen, hdep, h₁'⟩ :=
      propagateRound_spreads hF (s₀.dependents X) [] ys (rest, visited, count) acc st st₂
        (List.nil_append _) h.pop h₃
    -- the round made the queue lighter, so the fuel left suffices
    have hlighter : s₀.queueWeight acc.1 < s₀.queueWeight ((X, fks) :: rest) := by
      rw [hwork]
      exact Schema.queueWeight_round hF.layered (hlen.trans (Schema.length_dependents_le X)) hdep
    exact propagateLoop_spreads hF fuel acc.1 acc.2.1 acc.2.2 ys₁ st₂ n st' (by omega)
      (h₁'.finish hF) h₄

open EditM in
/-- Key propagation from distinct new key columns `seeds` of table `C`, over a founded schema,
ends with its queue empty, every relationship having mapped exactly the key columns owed to
it. -/
theorem propagateKeys_spreads (hF : s₀.Founded) {st st' : Session}
    (hs : st.db.schema? sid = some s₀) (hseeds : seeds.Nodup) {n : Nat}
    (hrun : (propagateKeys sid C seeds).run st = .ok n st') :
    ∃ ys visited, Spreading sid s₀ C seeds ys [] visited C [] [] st'.db := by
  unfold propagateKeys at hrun
  obtain ⟨s, st₁, h₁, h₂⟩ := run_bind_ok hrun
  obtain ⟨hst₁, hs₁⟩ := schema_run h₁
  subst st₁
  rw [hs, Option.some.injEq] at hs₁
  subst hs₁
  obtain ⟨count, st₂, h₃, h₄⟩ := run_bind_ok h₂
  obtain ⟨ys, visited, hsp⟩ := propagateLoop_spreads hF _ _ _ _ [] st count st₂
    (Schema.queueWeight_start C seeds) (Spreading.start hs hseeds) h₃
  have hdb : st'.db = st₂.db := by
    split at h₄
    · obtain ⟨u, st₃, h₅, h₆⟩ := run_bind_ok h₄
      obtain ⟨-, rfl⟩ := pure_run h₆
      exact emit_run h₅
    · obtain ⟨-, rfl⟩ := pure_run h₄
      rfl
  exact ⟨ys, visited, hdb ▸ hsp⟩

end SchemaDesign
