import SchemaDesign.Proofs.Edit.Release

/-!
# The cascades finish before their fuel

The key-removal cascade (`removalLoop`) and type mirroring (`mirrorLoop`) are worklists: a round
takes one queued (table, column) pair and queues the holder columns of the mappings that
reference it, each at most once, as the visited list guards. Neither adds a mapping, so a pair
queued after the start is the (holder, holder column) pair of a mapping the schema had when the
run began, and it is queued once. `queueWork`, what is queued plus the mapping pairs not visited
yet, falls by one in every round.

The callers give as much fuel as `queueWork` at the start, so more fuel never changes what a run
gives (`removalLoop_add_fuel`, `mirrorLoop_add_fuel`), on every snapshot, valid or not: the fuel
is never what stops them (`EditM.cascades_settle`).

Key propagation has no such bound. The pairs it queues are holder columns it has just created,
never visited before, so around a cycle of identifying relationships nothing stops it.
-/

namespace SchemaDesign

/-- The holder columns a relationship maps, each with the holder. -/
def Relationship.fkPairs (r : Relationship) : List (Id × Id) :=
  r.columns.map fun m => (r.fkTableId, m.fkColumnId)

/-- The holder columns the relationships stored in a table map, each with its holder. -/
def Table.fkPairs (t : Table) : List (Id × Id) := t.relationships.flatMap Relationship.fkPairs

/-- The holder columns the mappings of schema `sid` name, each with its holder: every pair a
cascade can queue. -/
def Database.fkPairs (sid : Id) (db : Database) : List (Id × Id) :=
  match db.schema? sid with
  | some s => s.tables.flatMap Table.fkPairs
  | none => []

/-- What a worklist still has to do: the pairs queued, and the mapping pairs not visited yet. -/
def queueWork (pairs : List (Id × Id)) (queued : Nat) (visited : List (Id × Id)) : Nat :=
  queued + (pairs.filter fun p => !visited.contains p).length

/-- Visiting a mapping pair for the first time leaves one pair fewer to visit. -/
theorem queueWork_visit {pairs : List (Id × Id)} {p : Id × Id} (hp : p ∈ pairs)
    {visited : List (Id × Id)} (hv : visited.contains p = false) (queued : Nat) :
    queueWork pairs (queued + 1) (visited ++ [p]) ≤ queueWork pairs queued visited := by
  unfold queueWork
  have hfilter : (pairs.filter fun q => !(visited ++ [p]).contains q) =
      (pairs.filter fun q => !visited.contains q).filter fun q => q != p := by
    rw [List.filter_filter]
    refine List.filter_congr fun q _ => ?_
    by_cases hq : q = p <;> simp [hq]
  have hlt : ((pairs.filter fun q => !visited.contains q).filter fun q => q != p).length <
      (pairs.filter fun q => !visited.contains q).length :=
    List.length_filter_lt_length_iff_exists.2 ⟨p, List.mem_filter.2 ⟨hp, by simpa using hv⟩, by simp⟩
  rw [hfilter]
  omega

theorem Schema.fkPairs_length (s : Schema) :
    (s.tables.flatMap Table.fkPairs).length = s.mappingCount := by
  have hpairs : s.tables.flatMap Table.fkPairs = s.relationships.flatMap Relationship.fkPairs := by
    rw [Schema.relationships, List.flatMap_assoc]
    rfl
  rw [hpairs, List.length_flatMap, Schema.mappingCount]
  simp only [Relationship.fkPairs, List.length_map]
  rfl

theorem Database.fkPairs_length {db : Database} {sid : Id} {s : Schema}
    (hs : db.schema? sid = some s) : (db.fkPairs sid).length = s.mappingCount := by
  rw [Database.fkPairs, hs, Schema.fkPairs_length]

namespace Table

/-- `t'` maps no holder column that `t` does not: what dropping mappings and relationships, and
detaching columns, keep. -/
def PairsWithin (t t' : Table) : Prop := ∀ p ∈ t'.fkPairs, p ∈ t.fkPairs

instance : IsPreorder Table PairsWithin where
  refl _ _ h := h
  trans _ _ _ h₁ h₂ p hp := h₁ p (h₂ p hp)

theorem pairsWithin_of_rels {t : Table} {rs : List Relationship}
    (h : ∀ r' ∈ rs, ∃ r ∈ t.relationships, ∀ p ∈ r'.fkPairs, p ∈ r.fkPairs) :
    t.PairsWithin { t with relationships := rs } := by
  intro p hp
  obtain ⟨r', hr', hp'⟩ := List.mem_flatMap.1 hp
  obtain ⟨r, hr, hsub⟩ := h r' hr'
  exact List.mem_flatMap.2 ⟨r, hr, hsub p hp'⟩

/-- Keeping some mappings of a relationship, renumbered, keeps the pairs among its own. -/
theorem fkPairs_renumber_filter (r : Relationship) (q : KeyMapping → Bool) :
    ∀ p ∈ ({ r with columns := renumber (fun m n => { m with seqNo := n }) (r.columns.filter q) } :
      Relationship).fkPairs, p ∈ r.fkPairs := by
  intro p hp
  have hren : (renumber (fun m n => { m with seqNo := n }) (r.columns.filter q)).map
      (fun m => (r.fkTableId, m.fkColumnId)) = (r.columns.filter q).map
      (fun m => (r.fkTableId, m.fkColumnId)) :=
    @map_renumber KeyMapping (Id × Id) (fun m n => { m with seqNo := n })
      (fun m => (r.fkTableId, m.fkColumnId)) (fun _ _ => rfl) _
  simp only [Relationship.fkPairs] at hp ⊢
  rw [hren] at hp
  exact List.map_subset _ (List.filter_subset_self _) hp

/-- Stripping mappings from the first relationship with an id, and dropping relationships. -/
theorem pairsWithin_strip (t : Table) (rid : Id) (q : KeyMapping → Bool)
    (keep : Relationship → Bool) :
    t.PairsWithin { t with relationships := (updateFirst (·.id = rid)
      (fun r => { r with columns := (renumber (fun m n => { m with seqNo := n }) (r.columns.filter q)) })
      t.relationships).filter keep } := by
  refine pairsWithin_of_rels fun r' hr' => ?_
  rcases mem_updateFirst (List.mem_filter.1 hr').1 with hr | ⟨r, hr, rfl⟩
  · exact ⟨r', hr, fun _ h => h⟩
  · exact ⟨r, List.mem_of_find?_eq_some hr, fkPairs_renumber_filter r _⟩

theorem pairsWithin_detachColumn (t : Table) (c : Id) : t.PairsWithin (t.detachColumn c).1 := by
  unfold detachColumn
  split
  · intro p hp
    simp only [fkPairs, pruneRedundantKeys_relationships, List.mem_flatMap, List.mem_filter,
      List.mem_map] at hp
    obtain ⟨_, ⟨⟨r, hr, rfl⟩, -⟩, hp⟩ := hp
    exact List.mem_flatMap.2 ⟨r, hr, fkPairs_renumber_filter r _ p hp⟩
  · exact fun _ h => h

end Table

/-- Snapshots related table by table by `PairsWithin` map, in schema `sid`, no pair the first
does not. -/
theorem Database.Tablewise.fkPairs_subset {db db' : Database}
    (h : db.Tablewise Table.PairsWithin db') (sid : Id) :
    ∀ p ∈ db'.fkPairs sid, p ∈ db.fkPairs sid := by
  intro p hp
  unfold Database.fkPairs at hp ⊢
  split at hp
  · next s' hs' =>
    have hsid : ∀ s s' : Schema, s'.id = s.id ∧ List.Forall₂ Table.PairsWithin s.tables s'.tables →
        decide (s'.id = sid) = decide (s.id = sid) := fun _ _ hs => by rw [hs.1]
    obtain ⟨s, hs, -, htables⟩ := forall₂_find? hsid h.2 hs'
    rw [show db.schema? sid = some s from hs]
    obtain ⟨t', ht', hpt'⟩ := List.mem_flatMap.1 hp
    obtain ⟨t, ht, hw⟩ := forall₂_exists_of_mem_right htables ht'
    exact List.mem_flatMap.2 ⟨t, ht, hw p hpt'⟩
  · exact absurd hp List.not_mem_nil

theorem Database.mem_fkPairs {db : Database} {sid : Id} {s : Schema}
    (hs : db.schema? sid = some s) {p : Id} {r : Relationship} (hr : r ∈ s.referencing p)
    {m : KeyMapping} (hm : m ∈ r.columns) : (r.fkTableId, m.fkColumnId) ∈ db.fkPairs sid := by
  rw [Database.fkPairs, hs]
  obtain ⟨t, ht, hrt⟩ := List.mem_flatMap.1 (List.mem_filter.1 hr).1
  exact List.mem_flatMap.2 ⟨t, ht, List.mem_flatMap.2 ⟨r, hrt, List.mem_map_of_mem hm⟩⟩

namespace EditM

theorem run_bind_congr {α β : Type} {x : EditM α} {f g : α → EditM β} {st : Session}
    (h : ∀ a st', x.run st = .ok a st' → (f a).run st' = (g a).run st') :
    (x >>= f).run st = (x >>= g).run st := by
  simp only [EStateM.run, bind, EStateM.bind]
  split
  · next a st' hx => exact h a st' hx
  · rfl

/-- A fold whose every step on an item of its list relates accumulators and snapshots by `Φ`, a
relation that composes, and leaves `P` of the item, which later steps keep: the whole fold relates
its ends by `Φ` and leaves `P` of every item. -/
theorem foldlM_run_mem {α β : Type} {f : β → α → EditM β}
    (Φ : β → β → Database → Database → Prop) (P : α → β → Database → Prop)
    (hrefl : ∀ b db, Φ b b db db)
    (htrans : ∀ b₁ b₂ b₃ db₁ db₂ db₃, Φ b₁ b₂ db₁ db₂ → Φ b₂ b₃ db₂ db₃ → Φ b₁ b₃ db₁ db₃)
    (hkeep : ∀ a b₁ b₂ db₁ db₂, P a b₁ db₁ → Φ b₁ b₂ db₁ db₂ → P a b₂ db₂) :
    ∀ xs : List α, (∀ a ∈ xs, ∀ b st b' st', (f b a).run st = .ok b' st' →
        Φ b b' st.db st'.db ∧ P a b' st'.db) →
      ∀ b st b' st', (xs.foldlM f b).run st = .ok b' st' →
        Φ b b' st.db st'.db ∧ ∀ a ∈ xs, P a b' st'.db
  | [], _, b, st, b', st', h => by
    obtain ⟨rfl, rfl⟩ := pure_run h
    exact ⟨hrefl _ _, fun _ ha => absurd ha List.not_mem_nil⟩
  | a :: xs, hf, b, st, b'', st'', h => by
    rw [List.foldlM_cons] at h
    obtain ⟨b', st', h₁, h₂⟩ := run_bind_ok h
    obtain ⟨hΦ₁, hP₁⟩ := hf a List.mem_cons_self b st b' st' h₁
    obtain ⟨hΦ₂, hP₂⟩ := foldlM_run_mem Φ P hrefl htrans hkeep xs
      (fun a ha => hf a (List.mem_cons_of_mem _ ha)) b' st' b'' st'' h₂
    refine ⟨htrans _ _ _ _ _ _ hΦ₁ hΦ₂, fun x hx => ?_⟩
    rcases List.mem_cons.1 hx with rfl | hx
    · exact hkeep x _ _ _ _ hP₁ hΦ₂
    · exact hP₂ x hx

theorem pairsWithin_dropMapping (sid hid rid fk key : Id) :
    Keeps (Database.Tablewise Table.PairsWithin) (dropMapping sid hid rid fk key) := by
  have hstrip : ∀ t : Table, t.PairsWithin (t.dropLink rid fk key) := fun t =>
    Table.pairsWithin_strip t rid (fun m => !(m.fkColumnId = fk && m.pkColumnId = key))
      (!·.columns.isEmpty)
  refine keeps_dropMapping_of (fun t => keepsFrom_putTable (hstrip t)) fun t => ?_
  exact keepsFrom_putTable (IsTrans.trans _ _ _ (hstrip t) (Table.pairsWithin_detachColumn _ fk))

/-- One rule for both cascades: a round either leaves the queue and the visited list as they
were, or queues the pair of a mapping it was handed, unvisited until then. -/
theorem queueWork_step {α : Type} {pairs : List (Id × Id)} {p : Id × Id} (hp : p ∈ pairs)
    {rest : List α} {visited : List (Id × Id)} {x : α} (hv : visited.contains p = false) :
    queueWork pairs (rest ++ [x]).length (visited ++ [p]) ≤ queueWork pairs rest.length visited := by
  rw [List.length_append, List.length_singleton]
  exact queueWork_visit hp hv _

/-- With at least `queueWork` of fuel, from a snapshot that maps only pairs of `pairs`, the
key-removal cascade gives what it gives with any more fuel. By induction on the fuel: a round
queues only unvisited pairs of `pairs` and adds no mapping, so the work left falls. -/
theorem removalLoop_add_fuel (sid : Id) (pairs : List (Id × Id)) :
    ∀ (fuel k : Nat) (work : List (Id × Id × Bool)) (visited : List (Id × Id)) (count : Nat)
      (st : Session), (∀ p ∈ st.db.fkPairs sid, p ∈ pairs) →
      queueWork pairs work.length visited ≤ fuel →
      (removalLoop sid (fuel + k) work visited count).run st =
        (removalLoop sid fuel work visited count).run st
  | 0, k, [], _, _, _, _, _ => by cases k <;> rfl
  | 0, _, _ :: _, _, _, _, _, hw => by simp [queueWork] at hw
  | fuel + 1, k, [], _, _, _, _, _ => by rw [Nat.add_right_comm]; rfl
  | fuel + 1, k, (p, key, survives) :: rest, visited, count, st, hpairs, hw => by
    rw [Nat.add_right_comm, removalLoop, removalLoop]
    refine run_bind_congr fun s st₁ h₁ => ?_
    obtain ⟨rfl, hs⟩ := schema_run h₁
    refine run_bind_congr fun acc st₂ h₂ => ?_
    -- the round keeps within the work it was given, and adds no mapping pair
    have hround := foldlM_run_mem
      (fun (b b' : List (Id × Id × Bool) × List (Id × Id) × Nat) db db' =>
        queueWork pairs b'.1.length b'.2.1 ≤ queueWork pairs b.1.length b.2.1 ∧
          db.Tablewise Table.PairsWithin db')
      (fun _ _ _ => True) (fun _ db => ⟨le_refl _, Std.Refl.refl db⟩)
      (fun _ _ _ _ _ _ h₁ h₂ => ⟨h₂.1.trans h₁.1, IsTrans.trans _ _ _ h₁.2 h₂.2⟩)
      (fun _ _ _ _ _ h _ => h) _ ?_ _ _ _ _ h₂ |>.1
    · obtain ⟨rest', visited', count'⟩ := acc
      refine removalLoop_add_fuel sid pairs fuel k rest' visited' count' st₂
        (fun q hq => hpairs q (hround.2.fkPairs_subset sid q hq)) ?_
      have hle := hround.1
      simp only [queueWork, List.length_cons] at hle hw ⊢
      omega
    · rintro ⟨h, rid, fk⟩ ha ⟨rest₀, visited₀, count₀⟩ st₃ b' st₄ hstep
      have hpair : (h, fk) ∈ pairs := by
        simp only [List.mem_flatMap, List.mem_filter, List.mem_map] at ha
        obtain ⟨r, ⟨hr, -⟩, m, ⟨hm, -⟩, heq⟩ := ha
        cases heq
        exact hpairs _ (Database.mem_fkPairs hs hr hm)
      dsimp only at hstep
      obtain ⟨⟨removed, follow⟩, st₅, hdrop, hrest⟩ := run_bind_ok hstep
      have hkeep := pairsWithin_dropMapping sid h rid fk key _ _ _ hdrop
      split at hrest
      · obtain ⟨rfl, rfl⟩ := pure_run hrest
        exact ⟨⟨le_refl _, hkeep⟩, trivial⟩
      · next hnew =>
        obtain ⟨rfl, rfl⟩ := pure_run hrest
        simp only [Bool.or_eq_true, Bool.not_eq_eq_eq_not, Bool.not_true, not_or] at hnew
        exact ⟨⟨queueWork_step hpair (by simpa using hnew.2), hkeep⟩, trivial⟩

/-- With at least `queueWork` of fuel, from a snapshot that maps only pairs of `pairs`, type
mirroring gives what it gives with any more fuel. By induction on the fuel, as for the cascade:
a round retypes columns and changes no mapping. -/
theorem mirrorLoop_add_fuel (sid : Id) (dataType : Option String) (ls : Option LengthScale)
    (pairs : List (Id × Id)) :
    ∀ (fuel k : Nat) (work visited : List (Id × Id)) (st : Session),
      (∀ p ∈ st.db.fkPairs sid, p ∈ pairs) → queueWork pairs work.length visited ≤ fuel →
      (mirrorLoop sid dataType ls (fuel + k) work visited).run st =
        (mirrorLoop sid dataType ls fuel work visited).run st
  | 0, k, [], _, _, _, _ => by cases k <;> rfl
  | 0, _, _ :: _, _, _, _, hw => by simp [queueWork] at hw
  | fuel + 1, k, [], _, _, _, _ => by rw [Nat.add_right_comm]; rfl
  | fuel + 1, k, (p, key) :: rest, visited, st, hpairs, hw => by
    rw [Nat.add_right_comm, mirrorLoop, mirrorLoop]
    refine run_bind_congr fun s st₁ h₁ => ?_
    obtain ⟨rfl, hs⟩ := schema_run h₁
    refine run_bind_congr fun acc st₂ h₂ => ?_
    have hround := foldlM_run_mem
      (fun (b b' : List (Id × Id) × List (Id × Id)) db db' =>
        queueWork pairs b'.1.length b'.2 ≤ queueWork pairs b.1.length b.2 ∧
          db.Tablewise Table.PairsWithin db')
      (fun _ _ _ => True) (fun _ db => ⟨le_refl _, Std.Refl.refl db⟩)
      (fun _ _ _ _ _ _ h₁ h₂ => ⟨h₂.1.trans h₁.1, IsTrans.trans _ _ _ h₁.2 h₂.2⟩)
      (fun _ _ _ _ _ h _ => h) _ ?_ _ _ _ _ h₂ |>.1
    · obtain ⟨rest', visited'⟩ := acc
      refine mirrorLoop_add_fuel sid dataType ls pairs fuel k rest' visited' st₂
        (fun q hq => hpairs q (hround.2.fkPairs_subset sid q hq)) ?_
      have hle := hround.1
      simp only [queueWork, List.length_cons] at hle hw ⊢
      omega
    · rintro ⟨h, fk⟩ ha ⟨rest₀, visited₀⟩ st₃ b' st₄ hstep
      have hpair : (h, fk) ∈ pairs := by
        simp only [List.mem_flatMap, List.mem_filter, List.mem_map] at ha
        obtain ⟨r, hr, m, ⟨hm, -⟩, heq⟩ := ha
        cases heq
        exact hpairs _ (Database.mem_fkPairs hs hr hm)
      dsimp only at hstep
      obtain ⟨_, st₅, hretype, hrest⟩ := run_bind_ok hstep
      have hkeep : st₃.db.Tablewise Table.PairsWithin st₅.db :=
        keeps_modifyTable (fun _ _ _ h => h) _ _ _ hretype
      split at hrest
      · obtain ⟨rfl, rfl⟩ := pure_run hrest
        exact ⟨⟨le_refl _, hkeep⟩, trivial⟩
      · next hnew =>
        obtain ⟨rfl, rfl⟩ := pure_run hrest
        exact ⟨⟨queueWork_step hpair (by simpa using hnew), hkeep⟩, trivial⟩

/-- The key-removal cascade and type mirroring finish before the fuel their callers give runs
out, on every snapshot, valid or not: a run with more fuel gives the same outcome. -/
theorem cascades_settle {sid : Id} {st : Session} {s : Schema} (hs : st.db.schema? sid = some s) :
    (∀ (seeds : List (Id × Id)) (survive : Bool) (k : Nat),
      (removalLoop sid (seeds.length + s.mappingCount + 1 + k)
        (seeds.map fun (t, c) => (t, c, survive)) seeds 0).run st =
      (removalLoop sid (seeds.length + s.mappingCount + 1)
        (seeds.map fun (t, c) => (t, c, survive)) seeds 0).run st) ∧
    (∀ (tid cid : Id) (dataType : Option String) (ls : Option LengthScale) (k : Nat),
      (mirrorLoop sid dataType ls (s.mappingCount + 1 + k) [(tid, cid)] [(tid, cid)]).run st =
      (mirrorLoop sid dataType ls (s.mappingCount + 1) [(tid, cid)] [(tid, cid)]).run st) := by
  -- the fuel is the work at the start: the seeds, and at most every mapping pair of the schema
  have hpairs := Database.fkPairs_length hs
  have hfilter : ∀ visited : List (Id × Id),
      ((st.db.fkPairs sid).filter fun p => !visited.contains p).length ≤ s.mappingCount :=
    fun _ => hpairs ▸ List.length_filter_le _ _
  refine ⟨fun seeds survive k => ?_, fun tid cid dataType ls k => ?_⟩
  · refine removalLoop_add_fuel sid _ _ k _ _ _ st (fun _ h => h) ?_
    have := hfilter seeds
    simp only [queueWork, List.length_map]
    omega
  · refine mirrorLoop_add_fuel sid dataType ls _ _ k _ _ st (fun _ h => h) ?_
    have := hfilter [(tid, cid)]
    simp only [queueWork, List.length_singleton]
    omega

end EditM

/-- On the snapshot `ordersAndLines`, the cascade and the mirroring finish within their fuel. -/
theorem EditM.ordersAndLines_cascades_settle :
    ∃ s, ordersAndLines.schema? ⟨"s"⟩ = some s ∧
      (∀ (seeds : List (Id × Id)) (survive : Bool) (k : Nat),
        (EditM.removalLoop ⟨"s"⟩ (seeds.length + s.mappingCount + 1 + k)
          (seeds.map fun (t, c) => (t, c, survive)) seeds 0).run ⟨ordersAndLines, {}, { seed := 0 }, []⟩ =
        (EditM.removalLoop ⟨"s"⟩ (seeds.length + s.mappingCount + 1)
          (seeds.map fun (t, c) => (t, c, survive)) seeds 0).run ⟨ordersAndLines, {}, { seed := 0 }, []⟩) ∧
      (∀ (tid cid : Id) (dataType : Option String) (ls : Option LengthScale) (k : Nat),
        (EditM.mirrorLoop ⟨"s"⟩ dataType ls (s.mappingCount + 1 + k) [(tid, cid)] [(tid, cid)]).run
          ⟨ordersAndLines, {}, { seed := 0 }, []⟩ =
        (EditM.mirrorLoop ⟨"s"⟩ dataType ls (s.mappingCount + 1) [(tid, cid)] [(tid, cid)]).run
          ⟨ordersAndLines, {}, { seed := 0 }, []⟩) :=
  ⟨_, rfl, EditM.cascades_settle rfl⟩

end SchemaDesign
