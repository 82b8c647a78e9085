import SchemaDesign.Proofs.Step
import SchemaDesign.Proofs.Graph.Search
import SchemaDesign.Proofs.Graph.DependencyGraph

/-!
# Schemas whose identifying relationships form layers

A table depends on the providers of its identifying relationships (`Schema.DependsOn`, by
table id). A schema is `Layered` when its tables have distinct ids and distinct names and no
table depends on itself, directly or through others.

Main statements:
- `Layered.identifyingOrder_cycle`: a layered schema gets a dependency order without a cycle;
- `layered_of_identifyingOrder`: distinct ids and names and an order without a cycle make a
  schema layered;
- `not_reaches_of_reachesProvider`: on distinct table ids, the provider search finds every
  dependency path, so a search that says no rules one out;
- `Layered.of_forall₂`: changing tables without changing their ids or names, and without
  adding a provider, keeps a schema layered, and so does adding one provider `p` to the table
  `h` when `p` does not already reach `h`.

The order report works on names and the search on ids; with distinct ids and names the two
graphs are the same graph, edges reversed.
-/

namespace SchemaDesign

/-- The providers of a table's identifying relationships. -/
def Table.providers (t : Table) : List Id :=
  (t.relationships.filter (·.isIdentifying)).map (·.pkTableId)

theorem Table.mem_providers {t : Table} {p : Id} :
    p ∈ t.providers ↔ ∃ r ∈ t.relationships, r.isIdentifying ∧ r.pkTableId = p := by
  simp [Table.providers, and_assoc]

/-- `t'` keeps the id and the name of `t`, and its providers are providers of `t` or allowed by
`extra` from `t`. -/
def Table.LinksWithin (extra : Id → Id → Prop) (t t' : Table) : Prop :=
  t'.id = t.id ∧ t'.name = t.name ∧ ∀ p ∈ t'.providers, p ∈ t.providers ∨ extra t.id p

instance Table.LinksWithin.isPreorder (extra : Id → Id → Prop) :
    IsPreorder Table (Table.LinksWithin extra) where
  refl t := ⟨rfl, rfl, fun p hp => .inl hp⟩
  trans t₁ t₂ t₃ h₁ h₂ := by
    refine ⟨h₂.1.trans h₁.1, h₂.2.1.trans h₁.2.1, fun p hp => ?_⟩
    rcases h₂.2.2 p hp with hp | hp
    · exact h₁.2.2 p hp
    · exact .inr (h₁.1 ▸ hp)

namespace Schema

/-- `h` depends on `p`: a table with id `h` holds an identifying relationship to `p`. -/
def DependsOn (s : Schema) (h p : Id) : Prop :=
  ∃ t ∈ s.tables, t.id = h ∧ p ∈ t.providers

/-- Distinct table ids and names, and no table depending on itself. -/
structure Layered (s : Schema) : Prop where
  ids_nodup : (s.tables.map (·.id)).Nodup
  names_nodup : (s.tables.map (·.name)).Nodup
  acyclic : ∀ x, ¬Relation.TransGen s.DependsOn x x

section Lookup

variable {s : Schema}

theorem table?_of_mem (hids : (s.tables.map (·.id)).Nodup) {t : Table} (ht : t ∈ s.tables) :
    s.table? t.id = some t :=
  find?_key_eq_of_mem hids ht

theorem mem_of_table? {i : Id} {t : Table} (h : s.table? i = some t) :
    t ∈ s.tables ∧ t.id = i :=
  ⟨List.mem_of_find?_eq_some h, by simpa using List.find?_some h⟩

theorem DependsOn.exists_table {h p : Id} (hd : s.DependsOn h p) : ∃ t ∈ s.tables, t.id = h := by
  obtain ⟨t, ht, rfl, _⟩ := hd
  exact ⟨t, ht, rfl⟩

end Lookup

/-! ## The search and the dependencies -/

/-- With distinct table ids, a step of the search is a dependency, as long as no identifying
relationship is the ignored one. -/
theorem providerStep_iff {s : Schema} (hids : (s.tables.map (·.id)).Nodup) {ignore : Option Id}
    (hig : ∀ t ∈ s.tables, ∀ r ∈ t.relationships, r.isIdentifying → some r.id ≠ ignore)
    {a b : Id} : s.ProviderStep ignore a b ↔ s.DependsOn a b := by
  unfold ProviderStep identifyingProviders
  constructor
  · intro h
    cases ht : s.table? a with
    | none => simp [ht] at h
    | some t =>
      simp only [ht, List.mem_map, List.mem_filter, Bool.and_eq_true] at h
      obtain ⟨r, ⟨hr, hid, _⟩, rfl⟩ := h
      obtain ⟨htm, rfl⟩ := mem_of_table? ht
      exact ⟨t, htm, rfl, Table.mem_providers.2 ⟨r, hr, hid, rfl⟩⟩
  · rintro ⟨t, ht, rfl, hp⟩
    obtain ⟨r, hr, hid, rfl⟩ := Table.mem_providers.1 hp
    rw [table?_of_mem hids ht]
    simp only [List.mem_map, List.mem_filter, Bool.and_eq_true, bne_iff_ne, ne_eq]
    exact ⟨r, ⟨hr, hid, hig t ht r hr hid⟩, rfl⟩

/-- A search that says no rules out every dependency path. -/
theorem not_reaches_of_reachesProvider {s : Schema} (hids : (s.tables.map (·.id)).Nodup)
    {ignore : Option Id}
    (hig : ∀ t ∈ s.tables, ∀ r ∈ t.relationships, r.isIdentifying → some r.id ≠ ignore)
    {a b : Id} (h : s.reachesProvider a b ignore = false) :
    ¬Relation.ReflTransGen s.DependsOn a b := by
  intro hr
  have hstep : Relation.ReflTransGen (s.ProviderStep ignore) a b :=
    Relation.ReflTransGen.mono (fun _ _ hd => (providerStep_iff hids hig).2 hd) _ _ hr
  rw [← reachesProvider_iff] at hstep
  simp [hstep] at h

/-! ## Ids and names -/

/-- A dependency path between tables is a path of the order report's graph, reversed. -/
theorem providesByName_of_dependsOn {s : Schema} (hids : (s.tables.map (·.id)).Nodup)
    {x y : Id} (hxy : Relation.TransGen s.DependsOn x y) {tx ty : Table} (htx : tx ∈ s.tables)
    (hx : tx.id = x) (hty : ty ∈ s.tables) (hy : ty.id = y) :
    Relation.TransGen s.ProvidesByName ty.name tx.name := by
  have hedge : ∀ {a b : Table}, a ∈ s.tables → b ∈ s.tables → s.DependsOn a.id b.id →
      s.ProvidesByName b.name a.name := by
    rintro a b ha hb ⟨t, ht, hta, hp⟩
    obtain ⟨r, hr, hid, hpk⟩ := Table.mem_providers.1 hp
    have : t = a := by
      have h₁ := table?_of_mem hids ht
      rw [hta, table?_of_mem hids ha] at h₁
      exact (Option.some.inj h₁).symm
    subst this
    exact ⟨t, ht, rfl, r, hr, hid, b, hpk ▸ table?_of_mem hids hb, rfl⟩
  induction hxy generalizing ty with
  | single hd =>
    subst hx hy
    exact .single (hedge htx hty hd)
  | tail _ hd ih =>
    subst hy
    obtain ⟨tz, htz, rfl⟩ := hd.exists_table
    exact .head (hedge htz hty hd) (ih htz rfl)

/-- A path of the order report's graph is a dependency path, reversed. -/
theorem dependsOn_of_providesByName {s : Schema} (hnames : (s.tables.map (·.name)).Nodup)
    {a b : String} (hab : Relation.TransGen s.ProvidesByName a b) {ta tb : Table}
    (hta : ta ∈ s.tables) (ha : ta.name = a) (htb : tb ∈ s.tables) (hb : tb.name = b) :
    Relation.TransGen s.DependsOn tb.id ta.id := by
  have hname : ∀ {u v : Table}, u ∈ s.tables → v ∈ s.tables → u.name = v.name → u = v :=
    fun hu hv he => List.inj_on_of_nodup_map hnames hu hv he
  have hedge : ∀ {u v : Table}, u ∈ s.tables → v ∈ s.tables →
      s.ProvidesByName u.name v.name → s.DependsOn v.id u.id := by
    rintro u v hu hv ⟨t, ht, htv, r, hr, hid, p, hp, hpu⟩
    obtain ⟨hpm, hpk⟩ := mem_of_table? hp
    obtain rfl := hname ht hv htv
    obtain rfl := hname hpm hu hpu
    exact ⟨t, ht, rfl, Table.mem_providers.2 ⟨r, hr, hid, hpk.symm⟩⟩
  induction hab generalizing tb with
  | single he =>
    subst ha hb
    exact .single (hedge hta htb he)
  | tail _ he ih =>
    subst hb
    -- the node before the last names the provider of the last edge
    have he' := he
    obtain ⟨_, _, _, _, _, _, p, hp, hpc⟩ := he'
    obtain ⟨hpm, -⟩ := mem_of_table? hp
    exact .head (hedge hpm htb (by rw [hpc]; exact he)) (ih hpm hpc)

/-- A layered schema gets a dependency order without a cycle. -/
theorem Layered.identifyingOrder_cycle {s : Schema} (h : s.Layered) :
    s.identifyingOrder.cycle = none := by
  rw [identifyingOrder_cycle_eq_none_iff]
  intro a ha
  obtain ⟨b, -, t, ht, hta, -⟩ := Relation.TransGen.tail'_iff.1 ha
  exact h.acyclic t.id (dependsOn_of_providesByName h.names_nodup ha ht hta ht hta)

/-- Distinct ids and names and an order without a cycle make a schema layered. -/
theorem layered_of_identifyingOrder {s : Schema} (hids : (s.tables.map (·.id)).Nodup)
    (hnames : (s.tables.map (·.name)).Nodup) (hcyc : s.identifyingOrder.cycle = none) :
    s.Layered := by
  refine ⟨hids, hnames, fun x hx => ?_⟩
  rw [identifyingOrder_cycle_eq_none_iff] at hcyc
  obtain ⟨c, hxc, -⟩ := Relation.TransGen.head'_iff.1 hx
  obtain ⟨t, ht, htx⟩ := hxc.exists_table
  exact hcyc t.name (providesByName_of_dependsOn hids hx ht htx ht htx)

/-! ## Changing the tables -/

/-- Adding one edge `(h, p)` to an acyclic relation keeps it acyclic when `p` does not reach
`h`. -/
theorem acyclic_of_le_add_edge {α : Type} {R R' : α → α → Prop}
    (hA : ∀ x, ¬Relation.TransGen R x x) {h p : α} (hph : ¬Relation.ReflTransGen R p h)
    (hle : ∀ a b, R' a b → R a b ∨ (a = h ∧ b = p)) : ∀ x, ¬Relation.TransGen R' x x := by
  -- a path of `R'` either stays in `R` or passes the new edge once
  have hpath : ∀ x y, Relation.TransGen R' x y → Relation.TransGen R x y ∨
      (Relation.ReflTransGen R x h ∧ Relation.ReflTransGen R p y) := by
    intro x y hxy
    induction hxy with
    | single hxy =>
      rcases hle _ _ hxy with hr | ⟨rfl, rfl⟩
      · exact .inl (.single hr)
      · exact .inr ⟨.refl, .refl⟩
    | tail _ hzy ih =>
      rcases ih with hxz | ⟨hxh, hpz⟩ <;> rcases hle _ _ hzy with hr | ⟨rfl, rfl⟩
      · exact .inl (.tail hxz hr)
      · exact .inr ⟨hxz.to_reflTransGen, .refl⟩
      · exact .inr ⟨hxh, .tail hpz hr⟩
      · exact absurd hpz hph
  intro x hx
  rcases hpath x x hx with hr | ⟨hxh, hpx⟩
  · exact hA x hr
  · exact hph (hpx.trans hxh)

theorem dependsOn_of_forall₂ {s s' : Schema} {extra : Id → Id → Prop}
    (hT : List.Forall₂ (Table.LinksWithin extra) s.tables s'.tables) {a b : Id}
    (hd : s'.DependsOn a b) : s.DependsOn a b ∨ extra a b := by
  obtain ⟨t', ht', rfl, hb⟩ := hd
  obtain ⟨t, ht, hid, -, hprov⟩ := forall₂_exists_of_mem_right hT ht'
  rw [hid]
  exact (hprov b hb).imp_left fun hb => ⟨t, ht, rfl, hb⟩

theorem ids_eq_of_forall₂ {s s' : Schema} {extra : Id → Id → Prop}
    (hT : List.Forall₂ (Table.LinksWithin extra) s.tables s'.tables) :
    s'.tables.map (·.id) = s.tables.map (·.id) :=
  forall₂_map_eq hT fun _ _ h => h.1

theorem names_eq_of_forall₂ {s s' : Schema} {extra : Id → Id → Prop}
    (hT : List.Forall₂ (Table.LinksWithin extra) s.tables s'.tables) :
    s'.tables.map (·.name) = s.tables.map (·.name) :=
  forall₂_map_eq hT fun _ _ h => h.2.1

/-- Tables changed without a new provider keep the schema layered. -/
theorem Layered.of_forall₂ {s s' : Schema} (h : s.Layered)
    (hT : List.Forall₂ (Table.LinksWithin fun _ _ => False) s.tables s'.tables) : s'.Layered where
  ids_nodup := ids_eq_of_forall₂ hT ▸ h.ids_nodup
  names_nodup := names_eq_of_forall₂ hT ▸ h.names_nodup
  acyclic x hx := h.acyclic x (Relation.TransGen.mono
    (fun _ _ hd => (dependsOn_of_forall₂ hT hd).resolve_right not_false) _ _ hx)

/-- Tables changed by one new provider `p` of the table `h`, where `p` does not reach `h`, keep
the schema layered. -/
theorem Layered.of_forall₂_link {s s' : Schema} (hs : s.Layered) {h p : Id}
    (hph : ¬Relation.ReflTransGen s.DependsOn p h)
    (hT : List.Forall₂ (Table.LinksWithin fun a b => a = h ∧ b = p) s.tables s'.tables) :
    s'.Layered where
  ids_nodup := ids_eq_of_forall₂ hT ▸ hs.ids_nodup
  names_nodup := names_eq_of_forall₂ hT ▸ hs.names_nodup
  acyclic := acyclic_of_le_add_edge hs.acyclic hph fun _ _ hd => dependsOn_of_forall₂ hT hd

end Schema

/-- Every schema of the snapshot is layered. -/
def Database.Layered (db : Database) : Prop := ∀ s ∈ db.schemas, s.Layered

/-- Changing tables without a new provider keeps a snapshot layered. -/
theorem Database.Layered.of_tablewise {db db' : Database} (h : db.Layered)
    (hT : db.Tablewise (Table.LinksWithin fun _ _ => False) db') : db'.Layered := by
  intro s' hs'
  obtain ⟨s, hs, -, hst⟩ := forall₂_exists_of_mem_right hT.2 hs'
  exact (h s hs).of_forall₂ hst

end SchemaDesign
