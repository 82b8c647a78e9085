import SchemaDesign.Proofs.Graph.Layered

/-!
# The cycle check agrees with the dependency order

Before table `a` gets an identifying relationship to `b`, `Schema.ensureAcyclic s a b ignore`
searches from `b` towards providers for `a`, leaving out the relationship `ignore` (the one being
checked again, when there is one). `Schema.identifyingOrder` answers the same question after the
fact: on the schema without `ignore` and with the new relationship in place, Kahn's algorithm over
table names either orders every table or reports a cycle.

Main statement `ensureAcyclic_eq_ok_iff`: on a schema with distinct table ids and names and no
cycle, the check passes exactly when the order of the changed schema reports no cycle; a table
never passes the check against itself.

The search runs on ids and the order on names; `Schema.Layered` joins the two. The schema
without `ignore` is layered, and adding the one dependency `a → b` keeps it layered exactly when
`b` does not already reach `a`, which is what the search decides.
-/

namespace SchemaDesign

namespace Schema

/-- The schema without the relationships whose id is `ignore`. -/
def withoutRelationship (s : Schema) (ignore : Option Id) : Schema :=
  { s with tables := s.tables.map fun t =>
      { t with relationships := t.relationships.filter fun r => some r.id != ignore } }

/-- The schema with the relationship `r` added to the table with id `holder`. -/
def withRelationship (s : Schema) (holder : Id) (r : Relationship) : Schema :=
  { s with tables := s.tables.map fun t =>
      if t.id = holder then { t with relationships := t.relationships ++ [r] } else t }

section Changes

variable {s : Schema}

/-- Leaving relationships out adds no provider. -/
theorem linksWithin_withoutRelationship (ignore : Option Id) :
    List.Forall₂ (Table.LinksWithin fun _ _ => False) s.tables
      (s.withoutRelationship ignore).tables := by
  rw [withoutRelationship, List.forall₂_map_right_iff]
  refine List.forall₂_same.2 fun t _ => ⟨rfl, rfl, fun p hp => .inl ?_⟩
  obtain ⟨r, hr, hid, rfl⟩ := Table.mem_providers.1 hp
  exact Table.mem_providers.2 ⟨r, (List.mem_filter.1 hr).1, hid, rfl⟩

/-- Adding `r` to `holder` adds at most the provider of `r` to `holder`. -/
theorem linksWithin_withRelationship (holder : Id) (r : Relationship) :
    List.Forall₂ (Table.LinksWithin fun h p => h = holder ∧ p = r.pkTableId) s.tables
      (s.withRelationship holder r).tables := by
  rw [withRelationship, List.forall₂_map_right_iff]
  refine List.forall₂_same.2 fun t _ => ?_
  by_cases ht : t.id = holder
  · rw [if_pos ht]
    refine ⟨rfl, rfl, fun p hp => ?_⟩
    obtain ⟨r', hr', hid, rfl⟩ := Table.mem_providers.1 hp
    rcases List.mem_append.1 hr' with hr' | hr'
    · exact .inl (Table.mem_providers.2 ⟨r', hr', hid, rfl⟩)
    · exact .inr ⟨ht, by rw [List.mem_singleton.1 hr']⟩
  · rw [if_neg ht]
    exact ⟨rfl, rfl, fun p hp => .inl hp⟩

/-- The relationships already there stay dependencies. -/
theorem DependsOn.withRelationship {x y : Id} (h : s.DependsOn x y) (holder : Id)
    (r : Relationship) : (s.withRelationship holder r).DependsOn x y := by
  obtain ⟨t, ht, rfl, hp⟩ := h
  obtain ⟨r', hr', hid, rfl⟩ := Table.mem_providers.1 hp
  refine ⟨if t.id = holder then { t with relationships := t.relationships ++ [r] } else t,
    List.mem_map_of_mem ht, by split_ifs <;> rfl, Table.mem_providers.2 ⟨r', ?_, hid, rfl⟩⟩
  split_ifs
  · exact List.mem_append_left _ hr'
  · exact hr'

theorem dependsOn_withRelationship {holder : Id} (hh : holder ∈ s.tables.map (·.id))
    {r : Relationship} (hr : r.isIdentifying = true) :
    (s.withRelationship holder r).DependsOn holder r.pkTableId := by
  obtain ⟨t, ht, rfl⟩ := List.mem_map.1 hh
  refine ⟨{ t with relationships := t.relationships ++ [r] }, ?_, rfl,
    Table.mem_providers.2 ⟨r, List.mem_append_right _ (List.mem_singleton_self r), hr, rfl⟩⟩
  exact List.mem_map.2 ⟨t, ht, if_pos rfl⟩

theorem table?_withoutRelationship (ignore : Option Id) (x : Id) :
    (s.withoutRelationship ignore).table? x = (s.table? x).map fun t =>
      { t with relationships := t.relationships.filter fun r => some r.id != ignore } := by
  simp only [table?, withoutRelationship, List.find?_map]
  rfl

/-- Searching with `ignore` left out is searching the schema without it. -/
theorem identifyingProviders_withoutRelationship (ignore : Option Id) (x : Id) :
    (s.withoutRelationship ignore).identifyingProviders x none = s.identifyingProviders x ignore := by
  unfold identifyingProviders
  rw [table?_withoutRelationship]
  cases s.table? x with
  | none => rfl
  | some t =>
    simp only [Option.map_some, List.filter_filter]
    congr 2
    funext r
    rw [show (some r.id != none) = true by simp, Bool.and_true]

theorem providerStep_iff_withoutRelationship (hids : (s.tables.map (·.id)).Nodup)
    {ignore : Option Id} {a b : Id} :
    s.ProviderStep ignore a b ↔ (s.withoutRelationship ignore).DependsOn a b := by
  have hids' : ((s.withoutRelationship ignore).tables.map (·.id)).Nodup := by
    rwa [ids_eq_of_forall₂ (linksWithin_withoutRelationship ignore)]
  change b ∈ s.identifyingProviders a ignore ↔ _
  rw [← identifyingProviders_withoutRelationship]
  exact providerStep_iff hids' fun _ _ _ _ _ => Option.some_ne_none _

/-- The search answers whether `goal` is reached from `start` in the schema without the ignored
relationship. -/
theorem reachesProvider_iff_withoutRelationship (hids : (s.tables.map (·.id)).Nodup)
    (start goal : Id) (ignore : Option Id) :
    s.reachesProvider start goal ignore = true ↔
      Relation.ReflTransGen (s.withoutRelationship ignore).DependsOn start goal := by
  have hstep : s.ProviderStep ignore = (s.withoutRelationship ignore).DependsOn := by
    funext a b
    exact propext (providerStep_iff_withoutRelationship hids)
  rw [reachesProvider_iff, hstep]

end Changes

/-- The check passes exactly when the search from `b` does not reach `a`. -/
theorem ensureAcyclic_eq_ok_iff_reaches (s : Schema) (a b : Id) (ignore : Option Id) :
    s.ensureAcyclic a b ignore = .ok () ↔ s.reachesProvider b a ignore = false := by
  unfold ensureAcyclic
  cases s.reachesProvider b a ignore <;> simp

/-- A table never passes the check against itself: the search starts at its goal. -/
theorem ensureAcyclic_self (s : Schema) (a : Id) (ignore : Option Id) :
    s.ensureAcyclic a a ignore ≠ .ok () := by
  rw [ne_eq, ensureAcyclic_eq_ok_iff_reaches, reachesProvider, Bool.not_eq_false]
  simp [searchProviders]

/-- **The two cycle detectors agree**: the check of an identifying relationship from `a` to `b`
passes exactly when the dependency order with it added reports no cycle, and never for `a = b`. -/
theorem ensureAcyclic_eq_ok_iff {s : Schema} (hids : (s.tables.map (·.id)).Nodup)
    (hnames : (s.tables.map (·.name)).Nodup) (hcyc : s.identifyingOrder.cycle = none)
    {a b : Id} (ha : a ∈ s.tables.map (·.id)) (ignore : Option Id) {r : Relationship}
    (hr : r.isIdentifying = true) (hrb : r.pkTableId = b) :
    (s.ensureAcyclic a b ignore = .ok () ↔
      ((s.withoutRelationship ignore).withRelationship a r).identifyingOrder.cycle = none) ∧
      (a = b → s.ensureAcyclic a b ignore ≠ .ok ()) := by
  subst hrb
  have hout := linksWithin_withoutRelationship (s := s) ignore
  have hin := linksWithin_withRelationship (s := s.withoutRelationship ignore) a r
  have hbase : (s.withoutRelationship ignore).Layered :=
    (layered_of_identifyingOrder hids hnames hcyc).of_forall₂ hout
  have hok : s.ensureAcyclic a r.pkTableId ignore = .ok () ↔
      ¬Relation.ReflTransGen (s.withoutRelationship ignore).DependsOn r.pkTableId a := by
    rw [ensureAcyclic_eq_ok_iff_reaches, ← reachesProvider_iff_withoutRelationship hids,
      Bool.not_eq_true]
  refine ⟨hok.trans ⟨fun hnr => (hbase.of_forall₂_link hnr hin).identifyingOrder_cycle, ?_⟩,
    fun hab => hab ▸ ensureAcyclic_self s a ignore⟩
  -- a path back from the provider closes a cycle through the new relationship
  intro hcyc' hback
  have hids' := ids_eq_of_forall₂ hin ▸ ids_eq_of_forall₂ hout ▸ hids
  have hnames' := names_eq_of_forall₂ hin ▸ names_eq_of_forall₂ hout ▸ hnames
  have ha' : a ∈ (s.withoutRelationship ignore).tables.map (·.id) := by
    rwa [ids_eq_of_forall₂ hout]
  refine (layered_of_identifyingOrder hids' hnames' hcyc').acyclic a
    (.head' (dependsOn_withRelationship ha' hr) ?_)
  exact Relation.ReflTransGen.mono (fun _ _ h => DependsOn.withRelationship h a r) _ _ hback

/-- Tables `orders` and `lines`, where `lines` is identified by `orders` through `r`. -/
def shopSchema : Schema :=
  ⟨⟨"s"⟩, ⟨"db"⟩, "shop", .mysql, none, none, [
    ⟨⟨"orders"⟩, ⟨"s"⟩, "orders", none, [], [], [], []⟩,
    ⟨⟨"lines"⟩, ⟨"s"⟩, "lines", none, [], [], [],
      [⟨⟨"r"⟩, ⟨"lines"⟩, ⟨"orders"⟩, "r", .identifying, .oneToMany, .noAction, .noAction, []⟩]⟩]⟩

/-- An identifying relationship from `orders` back to `lines`. -/
def ordersOnLines : Relationship :=
  ⟨⟨"back"⟩, ⟨"orders"⟩, ⟨"lines"⟩, "back", .identifying, .oneToMany, .noAction, .noAction, []⟩

/-- With `r` left out, `orders` may depend on `lines`; both detectors say so. -/
theorem ensureAcyclic_ordersOnLines :
    (shopSchema.tables.map (·.id)).Nodup ∧ (shopSchema.tables.map (·.name)).Nodup ∧
      shopSchema.identifyingOrder.cycle = none ∧
      ⟨"orders"⟩ ∈ shopSchema.tables.map (·.id) ∧ ordersOnLines.isIdentifying = true ∧
      ordersOnLines.pkTableId = ⟨"lines"⟩ ∧
      (shopSchema.ensureAcyclic ⟨"orders"⟩ ⟨"lines"⟩ (some ⟨"r"⟩) = .ok () ↔
        ((shopSchema.withoutRelationship (some ⟨"r"⟩)).withRelationship ⟨"orders"⟩
          ordersOnLines).identifyingOrder.cycle = none) ∧
      (⟨"orders"⟩ = (⟨"lines"⟩ : Id) →
        shopSchema.ensureAcyclic ⟨"orders"⟩ ⟨"lines"⟩ (some ⟨"r"⟩) ≠ .ok ()) := by
  have hids : (shopSchema.tables.map (·.id)).Nodup := by decide
  have hnames : (shopSchema.tables.map (·.name)).Nodup := by decide
  have hcyc : shopSchema.identifyingOrder.cycle = none := by rfl
  have ha : (⟨"orders"⟩ : Id) ∈ shopSchema.tables.map (·.id) := by decide
  exact ⟨hids, hnames, hcyc, ha, rfl, rfl,
    ensureAcyclic_eq_ok_iff hids hnames hcyc ha (some ⟨"r"⟩) rfl rfl⟩

end Schema

end SchemaDesign
