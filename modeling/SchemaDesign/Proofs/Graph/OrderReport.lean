import SchemaDesign.Proofs.Graph.DependencyGraph
import SchemaDesign.Proofs.NameChecks

/-!
# What the dependency order reports

`Schema.identifyingOrder` runs Kahn's algorithm over the dependency graph, where each table name
is a node and each identifying relationship whose provider exists is an edge from provider to
holder. The summary counts the nodes and the edges; the report then gives the order, providers
first, or the names left blocked. Validation refuses a schema whose report is blocked, naming the
first identifying relationship between two blocked tables.

A name is left blocked when it waits for a blocked name, so the blocked names are those that lie
on a cycle or depend, directly or through others, on a table that does: not only the tables of
the cycles.

Main statement `identifyingOrder_spec`, on distinct table names:
- without a cycle, the order lists every table name once, each provider before its dependents;
- with one, the report gives no order and, in name order, the names reached from a cycle;
- a refusal of a cycle by validation names a provider and a dependent that are both reached from
  a cycle;
- the edges counted are the distinct pairs of provider and dependent.

`identifyingOrder_blocks_dependent` shows the blocked names going past the cycle.
-/

namespace SchemaDesign

/-- A list finds `a` before `b`: the two occur in that order. -/
theorem pair_sublist_of_idxOf_lt {α : Type} [DecidableEq α] {l : List α} {a b : α}
    (ha : a ∈ l) (hb : b ∈ l) (h : l.idxOf a < l.idxOf b) : [a, b].Sublist l := by
  induction l with
  | nil => simp at ha
  | cons x xs ih =>
    have hbx : b ≠ x := by
      rintro rfl
      simp at h
    by_cases hxa : x = a
    · -- `a` heads the list, so `b` is in the tail
      subst hxa
      exact (List.singleton_sublist.2 ((List.mem_cons.1 hb).resolve_left hbx)).cons_cons x
    · rw [List.idxOf_cons_ne xs hxa, List.idxOf_cons_ne xs (Ne.symm hbx)] at h
      exact (ih ((List.mem_cons.1 ha).resolve_left (Ne.symm hxa))
        ((List.mem_cons.1 hb).resolve_left hbx) (by omega)).cons x

/-- Among finitely many marked elements, each with a marked predecessor, every marked element is
reached from a cycle: following predecessors must come back to one already met. -/
theorem exists_cycle_of_preds {α : Type} {P : α → α → Prop} {nodes : List α} {U : α → Prop}
    (hU : ∀ x, U x → x ∈ nodes) (hpred : ∀ x, U x → ∃ a, U a ∧ P a x) {k : α} (hk : U k) :
    ∃ c, Relation.TransGen P c c ∧ Relation.ReflTransGen P c k := by
  by_contra hno
  -- before `y` on a path that goes on to `k`: a strict order, since no cycle reaches `k`
  let R : α → α → Prop := fun x y => Relation.TransGen P x y ∧ Relation.ReflTransGen P y k
  have : IsStrictOrder α R :=
    { irrefl := fun x hx => hno ⟨x, hx.1, hx.2⟩
      trans := fun _ _ _ hxy hyz => ⟨hxy.1.trans hyz.1, hyz.2⟩ }
  have hwf := Set.wellFoundedOn_iff.1 ((List.finite_toSet nodes).wellFoundedOn (r := R))
  obtain ⟨m, ⟨hm, hmk⟩, hmin⟩ :=
    hwf.has_min {x | U x ∧ Relation.ReflTransGen P x k} ⟨k, hk, .refl⟩
  obtain ⟨a, ha, hPa⟩ := hpred m hm
  exact hmin a ⟨ha, .head hPa hmk⟩ ⟨⟨.single hPa, hmk⟩, hU a ha, hU m hm⟩

/-! ## The final state of the algorithm -/

section Final

variable {graph : List (String × List String)} {ds : InDegrees} {ready placed : List String}

theorem KahnState.mem_of_reaches (h : KahnState graph ds ready placed) {a b : String}
    (hab : Relation.ReflTransGen (Precedes graph) a b) (hb : b ∈ placed) : a ∈ placed := by
  rcases Relation.reflTransGen_iff_eq_or_transGen.1 hab with rfl | hab
  · exact hb
  · exact (h.placed_of_transGen hab hb).1

theorem KahnState.pendingPreds_of_mem (h : KahnState graph ds ready placed) {k : String}
    (hk : k ∈ placed) : pendingPreds graph placed k = 0 := by
  refine List.countP_eq_zero.2 fun a _ hpa => ?_
  simp only [decide_eq_true_eq] at hpa
  exact hpa.1 (h.placed_after a k hpa.2 hk).1

theorem KahnState.exists_unplaced_pred (h : KahnState graph ds [] placed) {k : String}
    (hk : k ∈ nodesOf graph) (hkp : k ∉ placed) :
    ∃ a, (a ∈ nodesOf graph ∧ a ∉ placed) ∧ Precedes graph a k := by
  have hpos : pendingPreds graph placed k ≠ 0 := fun h0 => by
    simpa using (h.mem_ready k).2 ⟨hk, hkp, h0⟩
  obtain ⟨a, ha, hpa⟩ := List.countP_pos_iff.1 (Nat.pos_of_ne_zero hpos)
  simp only [decide_eq_true_eq] at hpa
  exact ⟨a, ⟨ha, hpa.1⟩, hpa.2⟩

theorem mem_nodesOf_of_cycle (hG : GraphShape graph) {c k : String}
    (hc : Relation.TransGen (Precedes graph) c c)
    (hck : Relation.ReflTransGen (Precedes graph) c k) : k ∈ nodesOf graph := by
  rcases Relation.reflTransGen_iff_eq_or_transGen.1 hck with rfl | hck
  · obtain ⟨d, hcd, -⟩ := Relation.TransGen.head'_iff.1 hc
    exact hcd.mem_nodes_left
  · obtain ⟨d, -, hdk⟩ := Relation.TransGen.tail'_iff.1 hck
    exact hdk.mem_nodes_right hG

/-- When no node is ready, the unplaced nodes are exactly those reached from a cycle. -/
theorem KahnState.unplaced_iff (hG : GraphShape graph) (h : KahnState graph ds [] placed)
    {k : String} :
    (k ∈ nodesOf graph ∧ k ∉ placed) ↔ ∃ c, Relation.TransGen (Precedes graph) c c ∧
      Relation.ReflTransGen (Precedes graph) c k := by
  constructor
  · rintro ⟨hk, hkp⟩
    exact exists_cycle_of_preds (U := fun x => x ∈ nodesOf graph ∧ x ∉ placed)
      (fun _ hx => hx.1) (fun _ hx => h.exists_unplaced_pred hx.1 hx.2) ⟨hk, hkp⟩
  · rintro ⟨c, hc, hck⟩
    exact ⟨mem_nodesOf_of_cycle hG hc hck,
      fun hk => h.not_placed_of_cycle hc (h.mem_of_reaches hck hk)⟩

/-- The names the report gives as blocked: those with in-degree left. -/
theorem mem_blocked_iff {ds : InDegrees} (hn : (ds.map (·.1)).Nodup) {n : String} :
    n ∈ (ds.filter (0 < ·.2)).map (·.1) ↔ n ∈ ds.map (·.1) ∧ 0 < degreeOf ds n := by
  simp only [List.mem_map, List.mem_filter, decide_eq_true_eq]
  constructor
  · rintro ⟨d, ⟨hd, hpos⟩, rfl⟩
    refine ⟨⟨d, hd, rfl⟩, ?_⟩
    simpa [degreeOf, find?_key_eq_of_mem hn hd] using hpos
  · rintro ⟨⟨d, hd, rfl⟩, hpos⟩
    exact ⟨d, ⟨hd, by simpa [degreeOf, find?_key_eq_of_mem hn hd] using hpos⟩, rfl⟩

/-- When no node is ready, a node has in-degree left exactly when it is reached from a cycle. -/
theorem KahnState.blocked_iff (hG : GraphShape graph) (h : KahnState graph ds [] placed)
    {n : String} :
    n ∈ (ds.filter (0 < ·.2)).map (·.1) ↔ ∃ c, Relation.TransGen (Precedes graph) c c ∧
      Relation.ReflTransGen (Precedes graph) c n := by
  rw [mem_blocked_iff (h.nodes ▸ hG.nodes_nodup), h.nodes, ← h.unplaced_iff hG]
  refine and_congr_right fun hn => ?_
  rw [h.degree n hn]
  constructor
  · exact fun hpos hnp => absurd (h.pendingPreds_of_mem hnp) (Nat.pos_iff_ne_zero.1 hpos)
  · intro hnp
    obtain ⟨a, hau, hpa⟩ := h.exists_unplaced_pred hn hnp
    exact List.countP_pos_iff.2 ⟨a, hau.1, by simp [hau.2, hpa]⟩

end Final

/-! ## The report -/

namespace Schema

/-- The report reads off the final state of Kahn's algorithm on the dependency graph. -/
theorem identifyingOrder_run (s : Schema) :
    ∃ ds ready placed, KahnState s.dependencyGraph ds ready placed ∧
      (ready = [] ∨ placed.length = (nodesOf s.dependencyGraph).length) ∧
      s.identifyingOrder.order = (if placed.length = (nodesOf s.dependencyGraph).length then
        some placed.reverse else none) ∧
      s.identifyingOrder.cycle = (if placed.length = (nodesOf s.dependencyGraph).length then none
        else some ((ds.filter (0 < ·.2)).map (·.1))) := by
  have hG := dependencyGraph_shape s
  have hlen : s.dependencyGraph.length = (nodesOf s.dependencyGraph).length := by simp [nodesOf]
  obtain ⟨ready, placed, hK, hres, hend⟩ :=
    placeReady_final hG s.dependencyGraph.length _ _ _ (KahnState.initial hG) (by simp [hlen])
  refine ⟨_, ready, placed, hK, hend, ?_⟩
  unfold identifyingOrder
  dsimp only
  generalize placeReady _ _ _ _ _ = res at hres ⊢
  obtain ⟨ds, order⟩ := res
  dsimp only at hres ⊢
  subst hres
  rw [List.length_reverse, ← hlen]
  split <;> simp

/-- The summary: the number of names, and the number of dependents summed over providers. -/
theorem identifyingOrder_summary (s : Schema) :
    s.identifyingOrder.summary = ⟨s.dependencyGraph.length,
      (s.dependencyGraph.map (·.2.length)).foldr (· + ·) 0⟩ := by
  unfold identifyingOrder
  dsimp only
  generalize placeReady _ _ _ _ _ = res
  obtain ⟨ds, order⟩ := res
  dsimp only
  split <;> rfl

/-- Without a cycle, the order lists every table name once, each provider before its
dependents. -/
theorem identifyingOrder_of_acyclic (s : Schema) (hnames : (s.tables.map (·.name)).Nodup)
    (hA : ∀ a, ¬Relation.TransGen s.ProvidesByName a a) :
    ∃ order, s.identifyingOrder.order = some order ∧ s.identifyingOrder.cycle = none ∧
      order.Perm (s.tables.map (·.name)) ∧
      ∀ a b, s.ProvidesByName a b → [a, b].Sublist order := by
  have hG := dependencyGraph_shape s
  rw [← precedes_dependencyGraph] at hA ⊢
  obtain ⟨ds, ready, placed, hK, hend, horder, hcycle⟩ := identifyingOrder_run s
  -- the run stopped with every node placed: with no cycle, some node is ready while one is not
  have hall : placed.length = (nodesOf s.dependencyGraph).length := by
    by_contra hlen
    obtain ⟨k, hk, hkp⟩ := hK.exists_unplaced hG hlen
    obtain ⟨m, hm⟩ := hK.exists_ready hA hk hkp
    rcases hend with rfl | hall
    · simp at hm
    · exact hlen hall
  rw [if_pos hall] at horder hcycle
  have hperm : placed.Perm (nodesOf s.dependencyGraph) :=
    (hK.placed_nodup.subperm hK.placed_mem).perm_of_length_le hall.ge
  have hnodes : (nodesOf s.dependencyGraph).Perm (s.tables.map (·.name)) :=
    (List.perm_ext_iff_of_nodup hG.nodes_nodup hnames).2 fun _ => mem_nodesOf_dependencyGraph s
  refine ⟨_, horder, hcycle, (List.reverse_perm _).trans (hperm.trans hnodes), fun a b hab => ?_⟩
  obtain ⟨ha, hidx⟩ := hK.placed_after a b hab (hperm.symm.subset (hab.mem_nodes_right hG))
  have hb : b ∈ placed := hperm.symm.subset (hab.mem_nodes_right hG)
  simpa using (pair_sublist_of_idxOf_lt hb ha hidx).reverse

/-- With a cycle, the report gives no order and, in name order, the names reached from a
cycle. -/
theorem identifyingOrder_of_cycle (s : Schema) (hC : ∃ a, Relation.TransGen s.ProvidesByName a a) :
    s.identifyingOrder.order = none ∧ ∃ blocked, s.identifyingOrder.cycle = some blocked ∧
      blocked.Pairwise (· < ·) ∧ ∀ n, n ∈ blocked ↔
        ∃ c, Relation.TransGen s.ProvidesByName c c ∧ Relation.ReflTransGen s.ProvidesByName c n := by
  have hG := dependencyGraph_shape s
  rw [← precedes_dependencyGraph] at hC ⊢
  obtain ⟨ds, ready, placed, hK, hend, horder, hcycle⟩ := identifyingOrder_run s
  obtain ⟨a, ha⟩ := hC
  have hlen : placed.length ≠ (nodesOf s.dependencyGraph).length :=
    fun hall => hK.acyclic_of_length hG hall a ha
  obtain rfl := hend.resolve_right hlen
  rw [if_neg hlen] at horder hcycle
  refine ⟨horder, _, hcycle, ?_, fun n => hK.blocked_iff hG⟩
  have hsorted := (sortedGraph_dependencyGraph s).nodes_sorted
  rw [← hK.nodes] at hsorted
  exact hsorted.sublist (List.filter_sublist.map _)

/-- The edges counted are the distinct pairs of provider and dependent. -/
theorem identifyingOrder_edges (s : Schema) :
    ∃ pairs : List (String × String), pairs.Nodup ∧
      (∀ a b, (a, b) ∈ pairs ↔ s.ProvidesByName a b) ∧
      s.identifyingOrder.summary.edges = pairs.length := by
  have hG := dependencyGraph_shape s
  refine ⟨s.dependencyGraph.flatMap fun e => e.2.map (e.1, ·), ?_, fun a b => ?_, ?_⟩
  · -- the dependents of one entry are distinct, and entries name distinct providers
    refine List.nodup_flatMap.2 ⟨fun e he => (hG.dependents_nodup e he).map fun _ _ h => ?_, ?_⟩
    · exact (Prod.mk.inj h).2
    · have := List.pairwise_map.1 hG.nodes_nodup
      refine this.imp fun hne => ?_
      simp only [List.disjoint_left, List.mem_map]
      rintro _ ⟨_, -, rfl⟩ ⟨_, -, heq⟩
      exact hne (Prod.mk.inj heq).1.symm
  · rw [← precedes_dependencyGraph_iff, precedes_iff hG]
    simp only [List.mem_flatMap, List.mem_map, Prod.mk.injEq]
    constructor
    · rintro ⟨e, he, b', hb', rfl, rfl⟩
      exact ⟨e, he, rfl, hb'⟩
    · rintro ⟨e, he, rfl, hb⟩
      exact ⟨e, he, b, hb, rfl, rfl⟩
  · rw [identifyingOrder_summary, List.length_flatMap, List.sum_eq_foldr]
    simp

theorem exists_provider_of_reached {s : Schema} {c m : String}
    (hc : Relation.TransGen s.ProvidesByName c c) (hcm : Relation.ReflTransGen s.ProvidesByName c m) :
    ∃ d, Relation.ReflTransGen s.ProvidesByName c d ∧ s.ProvidesByName d m := by
  rcases Relation.reflTransGen_iff_eq_or_transGen.1 hcm with rfl | hcm
  · exact Relation.TransGen.tail'_iff.1 hc
  · exact Relation.TransGen.tail'_iff.1 hcm

/-- The refusal of a cycle, built from blocked names where each has a blocked provider, names a
dependent and its provider, both blocked. -/
theorem cycleError_spec (s : Schema) {members : List String} {m : String} (hm : m ∈ members)
    (hpred : ∀ n ∈ members, ∃ d ∈ members, s.ProvidesByName d n) :
    ∃ fk pk, s.cycleError members = .relationshipCyclicReference fk pk ∧
      s.ProvidesByName pk fk ∧ fk ∈ members ∧ pk ∈ members := by
  let found (t : Table) : Option (String × String) :=
    ((t.relationships.filter (·.isIdentifying)).filterMap (fun r => s.table? r.pkTableId)).findSome?
      fun provider => if members.contains t.name && members.contains provider.name then
        some (t.name, provider.name) else none
  have hfound : ∀ t fk pk, found t = some (fk, pk) → ∃ r ∈ t.relationships, r.isIdentifying ∧
      ∃ p, s.table? r.pkTableId = some p ∧ t.name = fk ∧ p.name = pk ∧ fk ∈ members ∧ pk ∈ members := by
    intro t fk pk h
    obtain ⟨p, hp, hpf⟩ := List.exists_of_findSome?_eq_some h
    obtain ⟨r, hr, hrp⟩ := List.mem_filterMap.1 hp
    obtain ⟨hr, hid⟩ := List.mem_filter.1 hr
    split_ifs at hpf with hmem
    obtain ⟨rfl, rfl⟩ := Prod.mk.inj (Option.some.inj hpf)
    simp only [Bool.and_eq_true, List.contains_iff_mem] at hmem
    exact ⟨r, hr, hid, p, hrp, rfl, rfl, hmem⟩
  -- some edge joins two blocked names: the one into `m`
  obtain ⟨d, hd, t, ht, htm, r, hr, hid, p, hp, hpd⟩ := hpred m hm
  have hsome : (s.tables.findSome? found).isSome := by
    rw [List.findSome?_isSome_iff]
    refine ⟨t, ht, List.findSome?_isSome_iff.2 ⟨p, List.mem_filterMap.2 ⟨r, ?_, hp⟩, ?_⟩⟩
    · exact List.mem_filter.2 ⟨hr, hid⟩
    · simp [htm, hpd, hm, hd]
  obtain ⟨⟨fk, pk⟩, hedge⟩ := Option.isSome_iff_exists.1 hsome
  obtain ⟨t', ht', hft'⟩ := List.exists_of_findSome?_eq_some hedge
  obtain ⟨r', hr', hid', p', hp', rfl, rfl, hfk, hpk⟩ := hfound t' fk pk hft'
  refine ⟨t'.name, p'.name, ?_, ⟨t', ht', rfl, r', hr', hid', p', hp', rfl⟩, hfk, hpk⟩
  unfold cycleError
  dsimp only
  rw [hedge]

end Schema

/-! ## Refusing a cycle -/

/-- The refusals other than that of a cycle of identifying relationships. -/
def DesignError.NotCyclic (e : DesignError) : Prop :=
  ∀ fk pk, e ≠ .relationshipCyclicReference fk pk

theorem Except.Good.imp {ε α : Type} {E E' : ε → Prop} {Q : α → Prop} {x : Except ε α}
    (h : Except.Good E Q x) (hE : ∀ e, E e → E' e) : Except.Good E' Q x := by
  cases x with
  | error e => exact hE e h
  | ok a => exact h

theorem DesignError.notCyclic_of_isPartRefusal {e : DesignError} (h : e.isPartRefusal) :
    e.NotCyclic := by
  rintro fk pk rfl
  cases h

theorem DesignError.notCyclic_of_repeatsName {e : DesignError} (h : e.repeatsName) :
    e.NotCyclic := by
  rintro fk pk rfl
  cases h

/-- The schema-wide name checks of indexes or constraints refuse only repeated names. -/
theorem good_nameFold_notCyclic {α : Type} {name : α → String} {e : α → DesignError}
    (he : ∀ x, (e x).repeatsName) (xs : List α) (names : List String) :
    Except.Good DesignError.NotCyclic (fun _ => True)
      (xs.foldlM (fun (names : List String) x => do
        if names.contains (name x) then throw (e x)
        pure (name x :: names)) names) :=
  Except.good_foldlM (fun _ _ => True) (fun x _ _ _ =>
    Except.Good.ite_throw (.inr (DesignError.notCyclic_of_repeatsName (he x)))
      (Except.Good.pure trivial)) _ _ trivial

namespace Schema

/-- A refusal of a cycle by the schema check comes from its last step, built from the blocked
names of the report. -/
theorem good_validate_cyclic (s : Schema) :
    Except.Good (fun e => ∀ fk pk, e = .relationshipCyclicReference fk pk →
      ∃ members, s.identifyingOrder.cycle = some members ∧ s.cycleError members = e)
      (fun _ => True) s.validate := by
  unfold validate
  refine Except.Good.bind (Except.Good.imp (E := DesignError.NotCyclic) (Q := fun _ => True) ?_
    fun e he fk pk h => absurd h (he fk pk)) fun _ _ => ?_
  · refine Except.good_foldlM (fun _ _ => True) (fun t _ acc _ => ?_) _ _ trivial
    obtain ⟨tables, indexes, constraints⟩ := acc
    have hpart : ∀ e : DesignError, e.isPartRefusal → e.NotCyclic :=
      fun _ => DesignError.notCyclic_of_isPartRefusal
    dsimp only
    refine Except.Good.ite_throw (.inr (DesignError.notCyclic_of_repeatsName rfl)) ?_
    refine Except.Good.seq (good_ensure (DesignError.notCyclic_of_isPartRefusal rfl)) fun _ => ?_
    refine Except.Good.bind (good_nameFold_notCyclic (fun _ => rfl) _ _) fun _ _ => ?_
    refine Except.Good.bind (good_nameFold_notCyclic (fun _ => rfl) _ _) fun _ _ => ?_
    refine Except.Good.seq (Table.good_validateParts_of hpart
      (.inr fun _ => DesignError.notCyclic_of_repeatsName rfl) _) fun _ => ?_
    exact Except.Good.seq (Table.good_validateRelationships_of hpart
      (.inr fun _ => DesignError.notCyclic_of_repeatsName rfl) _) fun _ => Except.Good.pure trivial
  · split
    · next members hcyc => exact Except.Good.throw fun _ _ _ => ⟨members, hcyc, rfl⟩
    · exact Except.Good.pure trivial

end Schema

/-- A refusal of a cycle by validation is the refusal built from the blocked names of one of
the schemas. -/
theorem Database.good_validate_cyclic (db : Database) :
    Except.Good (fun e => ∀ fk pk, e = .relationshipCyclicReference fk pk →
      ∃ s ∈ db.schemas, ∃ members, s.identifyingOrder.cycle = some members ∧
        s.cycleError members = e) (fun _ => True) db.validate := by
  unfold validate
  refine Except.Good.seq ?_ fun _ => ?_
  · unfold refuseSome
    split
    · exact Except.Good.throw fun _ _ h => by cases h
    · exact Except.Good.pure trivial
  refine Except.Good.bind (Except.good_foldlM (fun ss _ => ∀ s ∈ ss, s ∈ db.schemas)
    (fun s ss names hss => ?_) _ _ fun _ h => h) fun _ _ => Except.Good.pure trivial
  dsimp only
  split
  · exact Except.Good.throw fun _ _ h => by cases h
  refine Except.Good.bind (Except.Good.imp
    (good_ensure (DesignError.notCyclic_of_isPartRefusal rfl)) fun e he fk pk h => absurd h (he fk pk))
    fun _ _ => ?_
  refine Except.Good.bind (Except.Good.imp s.good_validate_cyclic fun e he fk pk h => ?_)
    fun _ _ => Except.Good.pure fun s' hs' => hss s' (.tail _ hs')
  exact ⟨s, hss s List.mem_cons_self, he fk pk h⟩

namespace Schema

/-- What the dependency order of a schema reports. -/
structure ReportsOrder (s : Schema) : Prop where
  /-- Without a cycle: an order listing every table name once, each provider before its
  dependents. -/
  acyclic : (∀ a, ¬Relation.TransGen s.ProvidesByName a a) →
    ∃ order, s.identifyingOrder.order = some order ∧ s.identifyingOrder.cycle = none ∧
      order.Perm (s.tables.map (·.name)) ∧ ∀ a b, s.ProvidesByName a b → [a, b].Sublist order
  /-- With a cycle: no order, and in name order the names reached from a cycle. -/
  cyclic : (∃ a, Relation.TransGen s.ProvidesByName a a) →
    s.identifyingOrder.order = none ∧ ∃ blocked, s.identifyingOrder.cycle = some blocked ∧
      blocked.Pairwise (· < ·) ∧ ∀ n, n ∈ blocked ↔
        ∃ c, Relation.TransGen s.ProvidesByName c c ∧ Relation.ReflTransGen s.ProvidesByName c n
  /-- The edges counted are the distinct pairs of provider and dependent. -/
  edges : ∃ pairs : List (String × String), pairs.Nodup ∧
    (∀ a b, (a, b) ∈ pairs ↔ s.ProvidesByName a b) ∧ s.identifyingOrder.summary.edges = pairs.length

/-- In a snapshot, the report of every schema with distinct table names is as `ReportsOrder`
says; and when validation refuses a cycle, naming a dependent and its provider, some schema has
that provider and dependent, with the provider reached from a cycle. -/
theorem identifyingOrder_spec (db : Database) :
    (∀ s ∈ db.schemas, (s.tables.map (·.name)).Nodup → s.ReportsOrder) ∧
      ∀ fk pk : String, db.validate = .error (.relationshipCyclicReference fk pk) →
        ∃ s ∈ db.schemas, s.ProvidesByName pk fk ∧
          ∃ c, Relation.TransGen s.ProvidesByName c c ∧ Relation.ReflTransGen s.ProvidesByName c pk := by
  refine ⟨fun s _ hnames => ⟨identifyingOrder_of_acyclic s hnames, identifyingOrder_of_cycle s,
    identifyingOrder_edges s⟩, fun fk pk hv => ?_⟩
  obtain ⟨s, hs, members, hcyc, herr⟩ := db.good_validate_cyclic.error hv fk pk rfl
  have hC : ∃ a, Relation.TransGen s.ProvidesByName a a := by
    by_contra hA
    have := (identifyingOrder_cycle_eq_none_iff s).2 fun a ha => hA ⟨a, ha⟩
    rw [hcyc] at this
    cases this
  obtain ⟨-, blocked, hblocked, -, hmem⟩ := identifyingOrder_of_cycle s hC
  rw [hcyc, Option.some.injEq] at hblocked
  subst hblocked
  obtain ⟨c, hc⟩ := hC
  have hpred : ∀ n ∈ members, ∃ d ∈ members, s.ProvidesByName d n := by
    intro n hn
    obtain ⟨c', hc', hcn⟩ := (hmem n).1 hn
    obtain ⟨d, hcd, hdn⟩ := exists_provider_of_reached hc' hcn
    exact ⟨d, (hmem d).2 ⟨c', hc', hcd⟩, hdn⟩
  obtain ⟨fk', pk', herr', hedge, -, hpk⟩ :=
    cycleError_spec s ((hmem c).2 ⟨c, hc, .refl⟩) hpred
  rw [herr'] at herr
  injection herr with hfk hpk'
  subst hfk hpk'
  exact ⟨s, hs, hedge, (hmem pk').1 hpk⟩

/-- Tables `a` and `b` identify each other, and `c` is identified by `a`. -/
def cycleAndDependent : Schema :=
  ⟨⟨"s"⟩, ⟨"db"⟩, "s", .mysql, none, none, [
    ⟨⟨"a"⟩, ⟨"s"⟩, "a", none, [], [], [],
      [⟨⟨"ra"⟩, ⟨"a"⟩, ⟨"b"⟩, "ra", .identifying, .oneToMany, .noAction, .noAction, []⟩]⟩,
    ⟨⟨"b"⟩, ⟨"s"⟩, "b", none, [], [], [],
      [⟨⟨"rb"⟩, ⟨"b"⟩, ⟨"a"⟩, "rb", .identifying, .oneToMany, .noAction, .noAction, []⟩]⟩,
    ⟨⟨"c"⟩, ⟨"s"⟩, "c", none, [], [], [],
      [⟨⟨"rc"⟩, ⟨"c"⟩, ⟨"a"⟩, "rc", .identifying, .oneToMany, .noAction, .noAction, []⟩]⟩]⟩

/-- The report of `cycleAndDependent` names `c` among the tables of a cycle, though no cycle goes
through `c`: nothing depends on it. -/
theorem identifyingOrder_blocks_dependent :
    cycleAndDependent.identifyingOrder.cycle = some ["a", "b", "c"] ∧
      ¬Relation.TransGen cycleAndDependent.ProvidesByName "c" "c" := by
  refine ⟨rfl, fun h => ?_⟩
  obtain ⟨x, ⟨t, ht, -, r, hr, -, p, hp, hpc⟩, -⟩ := Relation.TransGen.head'_iff.1 h
  simp only [cycleAndDependent, List.mem_cons, List.not_mem_nil, or_false] at ht
  rcases ht with rfl | rfl | rfl <;> simp only [List.mem_singleton] at hr <;> subst hr <;>
    simp [table?, cycleAndDependent] at hp <;> subst hp <;> simp at hpc

end Schema

end SchemaDesign
