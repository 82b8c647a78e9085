import Mathlib.Logic.Relation
import Mathlib.Order.WellFoundedSet
import Mathlib.Data.List.Perm.Subperm
import SchemaDesign.Graph

/-!
# The dependency order is Kahn's algorithm

`placeReady` places the nodes of an adjacency list one at a time, each once all the nodes it
depends on are placed, and `release` lowers the in-degrees of a placed node's dependents. On an
adjacency list of the shape `dependencyGraph` builds (`GraphShape`: nodes listed once, dependents
listed once each, and every dependent a node) this is Kahn's algorithm.

Main statement `placeReady_length_iff`: started from the in-degrees of the graph, the nodes
without predecessors, and fuel for every node, the order has all nodes exactly when the graph
has no cycle.

The proof carries `KahnState` along the steps: the degrees count the predecessors not yet
placed, the ready nodes are the unplaced ones with none, and every placed node was placed after
its predecessors. Completeness takes, among the unplaced nodes of an acyclic graph, one that no
other unplaced node reaches; soundness reads a cycle off the placing order.
-/

namespace SchemaDesign

/-- The nodes of an adjacency list, in order. -/
def nodesOf (graph : List (String × List String)) : List String := graph.map (·.1)

/-- `a` comes before `b`: `b` is a dependent of `a`. -/
def Precedes (graph : List (String × List String)) (a b : String) : Prop :=
  b ∈ dependentsOf graph a

instance (graph : List (String × List String)) : DecidableRel (Precedes graph) :=
  fun a b => inferInstanceAs (Decidable (b ∈ dependentsOf graph a))

/-- An adjacency list as the dependency graph is built: each node listed once, its dependents
listed once each, and every dependent a node. -/
structure GraphShape (graph : List (String × List String)) : Prop where
  nodes_nodup : (nodesOf graph).Nodup
  dependents_nodup : ∀ e ∈ graph, e.2.Nodup
  dependents_mem : ∀ e ∈ graph, ∀ b ∈ e.2, b ∈ nodesOf graph

@[simp]
theorem mem_nodesOf {graph : List (String × List String)} {a : String} :
    a ∈ nodesOf graph ↔ ∃ e ∈ graph, e.1 = a := by
  simp [nodesOf]

/-- In a list whose keys are distinct, looking an item's key up finds the item. -/
theorem find?_key_eq_of_mem {α β : Type} [DecidableEq β] {key : α → β} {l : List α}
    (hn : (l.map key).Nodup) {x : α} (hx : x ∈ l) : l.find? (fun y => key y = key x) = some x := by
  induction l with
  | nil => simp at hx
  | cons y ys ih =>
    simp only [List.map_cons, List.nodup_cons] at hn
    rcases List.mem_cons.1 hx with rfl | hx
    · simp
    · -- a later item: the head has another key
      have hy : key y ≠ key x := fun hy => hn.1 (hy ▸ List.mem_map_of_mem hx)
      simp only [List.find?_cons, hy, decide_false]
      exact ih hn.2 hx

/-! ## Reading the adjacency list -/

section Lookup

variable {graph : List (String × List String)}

theorem dependentsOf_of_mem (hn : (nodesOf graph).Nodup) {e : String × List String}
    (he : e ∈ graph) : dependentsOf graph e.1 = e.2 := by
  simp [dependentsOf, find?_key_eq_of_mem hn he]

theorem Precedes.exists_entry {a b : String} (h : Precedes graph a b) :
    ∃ e ∈ graph, e.1 = a ∧ b ∈ e.2 := by
  unfold Precedes dependentsOf at h
  cases hf : graph.find? (·.1 = a) with
  | none => simp [hf] at h
  | some e =>
    simp only [hf, Option.map_some, Option.getD_some] at h
    exact ⟨e, List.mem_of_find?_eq_some hf, by simpa using List.find?_some hf, h⟩

theorem Precedes.mem_nodes_left {a b : String} (h : Precedes graph a b) : a ∈ nodesOf graph := by
  obtain ⟨e, he, rfl, _⟩ := h.exists_entry
  exact mem_nodesOf.2 ⟨e, he, rfl⟩

theorem Precedes.mem_nodes_right (hG : GraphShape graph) {a b : String}
    (h : Precedes graph a b) : b ∈ nodesOf graph := by
  obtain ⟨e, he, _, hb⟩ := h.exists_entry
  exact hG.dependents_mem e he b hb

theorem precedes_iff (hG : GraphShape graph) {a b : String} :
    Precedes graph a b ↔ ∃ e ∈ graph, e.1 = a ∧ b ∈ e.2 := by
  refine ⟨Precedes.exists_entry, ?_⟩
  rintro ⟨e, he, rfl, hb⟩
  unfold Precedes
  rw [dependentsOf_of_mem hG.nodes_nodup he]
  exact hb

theorem dependentsOf_nodup (hG : GraphShape graph) (a : String) :
    (dependentsOf graph a).Nodup := by
  unfold dependentsOf
  cases hf : graph.find? (·.1 = a) with
  | none => simp
  | some e => simpa using hG.dependents_nodup e (List.mem_of_find?_eq_some hf)

end Lookup

/-! ## Sorted insertion and degrees -/

@[simp]
theorem mem_insertName {n x : String} {l : List String} :
    x ∈ insertName n l ↔ x = n ∨ x ∈ l := by
  induction l with
  | nil => simp [insertName]
  | cons m ms ih =>
    unfold insertName
    split_ifs with h₁ h₂
    · simp
    · subst h₂
      simp
    · simp only [List.mem_cons, ih]
      tauto

theorem nodup_insertName {n : String} {l : List String} (hn : n ∉ l) (hl : l.Nodup) :
    (insertName n l).Nodup := by
  induction l with
  | nil => simp [insertName]
  | cons m ms ih =>
    simp only [List.mem_cons, not_or] at hn
    simp only [List.nodup_cons] at hl
    unfold insertName
    split_ifs with h₁ h₂
    · exact List.nodup_cons.2 ⟨by simp [hn.1, hn.2], List.nodup_cons.2 hl⟩
    · exact absurd h₂ hn.1
    · exact List.nodup_cons.2 ⟨by simp [Ne.symm hn.1, hl.1], ih hn.2 hl.2⟩

@[simp]
theorem nodes_lowerDegree (n : String) (ds : InDegrees) :
    (lowerDegree n ds).map (·.1) = ds.map (·.1) := by
  simp only [lowerDegree, List.map_map]
  apply List.map_congr_left
  intro d _
  simp only [Function.comp_apply]
  split_ifs <;> rfl

theorem degreeOf_lowerDegree (n k : String) (ds : InDegrees) :
    degreeOf (lowerDegree n ds) k = if k = n then degreeOf ds k - 1 else degreeOf ds k := by
  have hfind : (lowerDegree n ds).find? (·.1 = k) =
      (ds.find? (·.1 = k)).map fun d => if d.1 = n then (d.1, d.2 - 1) else d := by
    rw [lowerDegree, List.find?_map]
    congr 2
    funext d
    simp only [Function.comp_apply]
    split_ifs <;> rfl
  unfold degreeOf
  rw [hfind]
  cases hf : ds.find? (·.1 = k) with
  | none => split_ifs <;> simp
  | some d =>
    have hdk : d.1 = k := by simpa using List.find?_some hf
    subst hdk
    by_cases h : d.1 = n <;> simp [h]

theorem any_key_iff {ds : InDegrees} {k : String} :
    ds.any (·.1 = k) = true ↔ k ∈ ds.map (·.1) := by
  simp only [List.any_eq_true, decide_eq_true_eq, List.mem_map]

theorem release_cons (t : String) (ts : List String) (ds : InDegrees) (ready : List String) :
    release (t :: ts) ds ready =
      release ts (lowerDegree t ds)
        (if (lowerDegree t ds).any (·.1 = t) && degreeOf (lowerDegree t ds) t = 0 then
          insertName t ready else ready) := by
  simp only [release, List.foldl_cons]
  split <;> rfl

/-- Releasing dependents: each loses one incoming edge, and those left with none that are nodes
join the ready ones. -/
theorem release_spec {targets : List String} (hT : targets.Nodup) :
    ∀ {ds : InDegrees} {ready : List String}, ready.Nodup → (∀ t ∈ targets, t ∉ ready) →
      (release targets ds ready).1.map (·.1) = ds.map (·.1) ∧
      (∀ k, degreeOf (release targets ds ready).1 k =
        degreeOf ds k - if k ∈ targets then 1 else 0) ∧
      (∀ k, k ∈ (release targets ds ready).2 ↔ k ∈ ready ∨
        (k ∈ targets ∧ k ∈ ds.map (·.1) ∧ degreeOf (release targets ds ready).1 k = 0)) ∧
      (release targets ds ready).2.Nodup := by
  induction targets with
  | nil =>
    intro ds ready hR _
    simp [release, hR]
  | cons t ts ih =>
    intro ds ready hR hdis
    rw [List.nodup_cons] at hT
    rw [release_cons]
    generalize hc : ((lowerDegree t ds).any (·.1 = t) && degreeOf (lowerDegree t ds) t = 0) = c
    have ht : t ∉ ready := hdis t List.mem_cons_self
    have hR₁ : (if c = true then insertName t ready else ready).Nodup := by
      split_ifs
      · exact nodup_insertName ht hR
      · exact hR
    have hdis₁ : ∀ u ∈ ts, u ∉ if c = true then insertName t ready else ready := by
      intro u hu
      have hne : u ≠ t := fun h => hT.1 (h ▸ hu)
      split_ifs
      · simp [hne, hdis u (List.mem_cons_of_mem t hu)]
      · exact hdis u (List.mem_cons_of_mem t hu)
    obtain ⟨hkeys, hdeg, hready, hnodup⟩ := ih hT.2 hR₁ hdis₁
    -- later targets are other nodes, so the degree of `t` is final once it is lowered
    have ht_final : degreeOf (release ts (lowerDegree t ds)
        (if c = true then insertName t ready else ready)).1 t = degreeOf ds t - 1 := by
      rw [hdeg, degreeOf_lowerDegree, if_pos rfl, if_neg hT.1, Nat.sub_zero]
    refine ⟨by rw [hkeys, nodes_lowerDegree], ?_, ?_, hnodup⟩
    · intro k
      rw [hdeg, degreeOf_lowerDegree]
      by_cases hk : k = t
      · subst hk
        simp [hT.1]
      · simp [hk]
    · have hc' : c = true ↔ t ∈ ds.map (·.1) ∧ degreeOf ds t - 1 = 0 := by
        rw [← hc]
        simp only [Bool.and_eq_true, any_key_iff, nodes_lowerDegree, decide_eq_true_eq,
          degreeOf_lowerDegree, if_pos]
      intro k
      rw [hready, nodes_lowerDegree]
      by_cases hk : k = t
      · subst hk
        have hL : (k ∈ if c = true then insertName k ready else ready) ↔ c = true := by
          split_ifs with h <;> simp [h, ht]
        rw [ht_final, hL, hc']
        simp [ht, hT.1]
      · have hL : (k ∈ if c = true then insertName t ready else ready) ↔ k ∈ ready := by
          split_ifs <;> simp [hk]
        rw [hL]
        simp [hk]

/-! ## The state of the algorithm -/

/-- The predecessors of `k` not yet placed. -/
def pendingPreds (graph : List (String × List String)) (placed : List String) (k : String) :
    Nat :=
  (nodesOf graph).countP fun a => a ∉ placed ∧ Precedes graph a k

/-- Counting unplaced nodes of a list without repeats: placing `n` removes `n` alone. -/
theorem countP_unplaced_cons {L : List String} (hL : L.Nodup) {n : String} {placed : List String}
    (hn : n ∉ placed) (q : String → Prop) [DecidablePred q] :
    L.countP (fun a => a ∉ placed ∧ q a)
      = L.countP (fun a => a ∉ n :: placed ∧ q a) + if n ∈ L ∧ q n then 1 else 0 := by
  induction L with
  | nil => simp
  | cons x xs ih =>
    rw [List.nodup_cons] at hL
    rw [List.countP_cons, List.countP_cons, ih hL.2]
    by_cases hx : x = n
    · subst hx
      simp [hn, hL.1]
    · have hpx : (x ∉ n :: placed ∧ q x) ↔ (x ∉ placed ∧ q x) := by simp [hx]
      have hnx : (n ∈ x :: xs ∧ q n) ↔ (n ∈ xs ∧ q n) := by simp [Ne.symm hx]
      simp only [hpx, hnx]
      omega

/-- Placing `n` takes it off the pending predecessors of its dependents. -/
theorem pendingPreds_cons {graph : List (String × List String)} (hn : (nodesOf graph).Nodup)
    {n : String} {placed : List String} (hnp : n ∉ placed) (k : String) :
    pendingPreds graph placed k
      = pendingPreds graph (n :: placed) k + if Precedes graph n k then 1 else 0 := by
  unfold pendingPreds
  rw [countP_unplaced_cons hn hnp (Precedes graph · k)]
  congr 1
  by_cases h : Precedes graph n k
  · simp [h, h.mem_nodes_left]
  · simp [h]

/-- What holds after each step of the algorithm. `placed` lists the placed nodes, the last
placed first. -/
structure KahnState (graph : List (String × List String)) (ds : InDegrees)
    (ready placed : List String) : Prop where
  nodes : ds.map (·.1) = nodesOf graph
  degree : ∀ k ∈ nodesOf graph, degreeOf ds k = pendingPreds graph placed k
  mem_ready : ∀ k, k ∈ ready ↔ k ∈ nodesOf graph ∧ k ∉ placed ∧ pendingPreds graph placed k = 0
  ready_nodup : ready.Nodup
  placed_nodup : placed.Nodup
  placed_mem : ∀ k ∈ placed, k ∈ nodesOf graph
  placed_after : ∀ a b, Precedes graph a b → b ∈ placed →
    a ∈ placed ∧ placed.idxOf b < placed.idxOf a

section Steps

variable {graph : List (String × List String)} {ds : InDegrees} {ready placed : List String}

/-- Placing the first ready node keeps the state. -/
theorem KahnState.place (hG : GraphShape graph) {n : String}
    (h : KahnState graph ds (n :: ready) placed) :
    KahnState graph (release (dependentsOf graph n) ds ready).1
      (release (dependentsOf graph n) ds ready).2 (n :: placed) := by
  obtain ⟨hn, hnp, hn0⟩ := (h.mem_ready n).1 List.mem_cons_self
  obtain ⟨hnr, hr⟩ := List.nodup_cons.1 h.ready_nodup
  -- each dependent of `n` still waits for `n`, so none is ready yet
  have hwait : ∀ t, Precedes graph n t → 0 < pendingPreds graph placed t := fun t ht =>
    List.countP_pos_iff.2 ⟨n, hn, by simp [hnp, ht]⟩
  have hdis : ∀ t ∈ dependentsOf graph n, t ∉ ready := by
    intro t ht htr
    have := ((h.mem_ready t).1 (List.mem_cons_of_mem n htr)).2.2
    have := hwait t ht
    omega
  obtain ⟨hkeys, hdeg, hmem, hnd⟩ := release_spec (dependentsOf_nodup hG n) hr hdis
  have hpend := pendingPreds_cons hG.nodes_nodup hnp
  have hdeg' : ∀ k ∈ nodesOf graph, degreeOf (release (dependentsOf graph n) ds ready).1 k
      = pendingPreds graph (n :: placed) k := by
    intro k hk
    rw [hdeg, h.degree k hk, hpend k]
    by_cases hnk : Precedes graph n k
    · simp only [Precedes] at hnk
      simp [Precedes, hnk]
    · simp only [Precedes] at hnk
      simp [Precedes, hnk]
  refine ⟨hkeys.trans h.nodes, hdeg', ?_, hnd, List.nodup_cons.2 ⟨hnp, h.placed_nodup⟩, ?_, ?_⟩
  · intro k
    rw [hmem, h.nodes]
    constructor
    · rintro (hk | ⟨hk, hkn, hk0⟩)
      · -- a node that was ready stays ready
        obtain ⟨hkn, hkp, hk0⟩ := (h.mem_ready k).1 (List.mem_cons_of_mem n hk)
        have hkne : k ≠ n := fun e => hnr (e ▸ hk)
        refine ⟨hkn, by simp [hkne, hkp], ?_⟩
        have := hpend k
        omega
      · -- a released dependent: `n` was its last pending predecessor
        have hkne : k ≠ n := by
          rintro rfl
          have := hwait k hk
          omega
        have hkp : k ∉ placed := fun hkp => hnp (h.placed_after n k hk hkp).1
        exact ⟨hkn, by simp [hkne, hkp], (hdeg' k hkn).symm.trans hk0⟩
    · rintro ⟨hkn, hkp, hk0⟩
      simp only [List.mem_cons, not_or] at hkp
      by_cases hk : k ∈ dependentsOf graph n
      · exact .inr ⟨hk, hkn, (hdeg' k hkn).trans hk0⟩
      · have hold : pendingPreds graph placed k = 0 := by
          rw [hpend k]
          simp only [Precedes] at ⊢
          simp [hk, hk0]
        have := (h.mem_ready k).2 ⟨hkn, hkp.2, hold⟩
        exact .inl ((List.mem_cons.1 this).resolve_left hkp.1)
  · intro k hk
    rcases List.mem_cons.1 hk with rfl | hk
    · exact hn
    · exact h.placed_mem k hk
  · intro a b hab hb
    rcases List.mem_cons.1 hb with rfl | hb
    · -- every predecessor of the placed node was placed before it
      have ha : a ∈ placed := by
        by_contra ha
        have : 0 < pendingPreds graph placed b :=
          List.countP_pos_iff.2 ⟨a, hab.mem_nodes_left, by simp [ha, hab]⟩
        omega
      have hane : a ≠ b := fun e => hnp (e ▸ ha)
      refine ⟨List.mem_cons_of_mem b ha, ?_⟩
      rw [List.idxOf_cons_self, List.idxOf_cons_ne _ (Ne.symm hane)]
      omega
    · obtain ⟨ha, hidx⟩ := h.placed_after a b hab hb
      have hane : n ≠ a := fun e => hnp (e ▸ ha)
      have hbne : n ≠ b := fun e => hnp (e ▸ hb)
      refine ⟨List.mem_cons_of_mem n ha, ?_⟩
      rw [List.idxOf_cons_ne _ hane, List.idxOf_cons_ne _ hbne]
      omega

/-- In an acyclic graph, while a node is unplaced, some node is ready: an unplaced node that no
unplaced node reaches has no pending predecessor. -/
theorem KahnState.exists_ready (h : KahnState graph ds ready placed)
    (hA : ∀ a, ¬Relation.TransGen (Precedes graph) a a) {k : String} (hk : k ∈ nodesOf graph)
    (hkp : k ∉ placed) : ∃ m, m ∈ ready := by
  have : IsStrictOrder String (Relation.TransGen (Precedes graph)) :=
    { irrefl := hA
      trans := fun _ _ _ => Relation.TransGen.trans }
  have hwf := Set.wellFoundedOn_iff.1
    ((List.finite_toSet (nodesOf graph)).wellFoundedOn (r := Relation.TransGen (Precedes graph)))
  obtain ⟨m, ⟨hm, hmp⟩, hmin⟩ :=
    hwf.has_min {x | x ∈ nodesOf graph ∧ x ∉ placed} ⟨k, hk, hkp⟩
  refine ⟨m, (h.mem_ready m).2 ⟨hm, hmp, List.countP_eq_zero.2 ?_⟩⟩
  intro a ha hpa
  simp only [decide_eq_true_eq] at hpa
  exact hmin a ⟨ha, hpa.1⟩ ⟨.single hpa.2, ha, hm⟩

/-- Along a path into a placed node, every node was placed, each after the one before it. -/
theorem KahnState.placed_of_transGen (h : KahnState graph ds ready placed) {a b : String}
    (hab : Relation.TransGen (Precedes graph) a b) (hb : b ∈ placed) :
    a ∈ placed ∧ placed.idxOf b < placed.idxOf a := by
  induction hab with
  | single hab => exact h.placed_after _ _ hab hb
  | tail _ hcb ih =>
    obtain ⟨hc, hbc⟩ := h.placed_after _ _ hcb hb
    obtain ⟨ha, hca⟩ := ih hc
    exact ⟨ha, by omega⟩

/-- A node on a cycle is never placed. -/
theorem KahnState.not_placed_of_cycle (h : KahnState graph ds ready placed) {c : String}
    (hc : Relation.TransGen (Precedes graph) c c) : c ∉ placed := fun hp => by
  have := (h.placed_of_transGen hc hp).2
  omega

/-- While some node is unplaced, fewer nodes are placed than the graph has. -/
theorem KahnState.exists_unplaced (hG : GraphShape graph) (h : KahnState graph ds ready placed)
    (hlen : placed.length ≠ (nodesOf graph).length) : ∃ k ∈ nodesOf graph, k ∉ placed := by
  by_contra hall
  have hsub : nodesOf graph ⊆ placed := fun k hk => by
    by_contra hkp
    exact hall ⟨k, hk, hkp⟩
  have := (hG.nodes_nodup.subperm hsub).length_le
  have := (h.placed_nodup.subperm h.placed_mem).length_le
  omega

/-- Once every node is placed, the placing order rules out a cycle. -/
theorem KahnState.acyclic_of_length (hG : GraphShape graph) (h : KahnState graph ds ready placed)
    (hall : placed.length = (nodesOf graph).length) :
    ∀ a, ¬Relation.TransGen (Precedes graph) a a := by
  have hsub : ∀ k ∈ nodesOf graph, k ∈ placed := by
    have hperm := (h.placed_nodup.subperm h.placed_mem).perm_of_length_le hall.ge
    exact fun k hk => hperm.symm.subset hk
  intro a hcyc
  obtain ⟨c, _, hca⟩ := Relation.TransGen.tail'_iff.1 hcyc
  exact h.not_placed_of_cycle hcyc (hsub a (hca.mem_nodes_right hG))

end Steps

/-! ## Runs of the algorithm -/

section Runs

variable {graph : List (String × List String)}

theorem placeReady_cons (fuel : Nat) (ds : InDegrees) (n : String) (ready placed : List String) :
    placeReady graph (fuel + 1) ds (n :: ready) placed
      = placeReady graph fuel (release (dependentsOf graph n) ds ready).1
          (release (dependentsOf graph n) ds ready).2 (n :: placed) := by
  simp only [placeReady]

/-- A run ends in a state of the algorithm where no node is ready or every node is placed, and
its order is the placed nodes, first placed first. -/
theorem placeReady_final (hG : GraphShape graph) :
    ∀ (fuel : Nat) (ds : InDegrees) (ready placed : List String),
      KahnState graph ds ready placed → fuel + placed.length = (nodesOf graph).length →
      ∃ ready' placed', KahnState graph (placeReady graph fuel ds ready placed).1 ready' placed' ∧
        (placeReady graph fuel ds ready placed).2 = placed'.reverse ∧
        (ready' = [] ∨ placed'.length = (nodesOf graph).length)
  | 0, ds, ready, placed, h, hf => ⟨ready, placed, h, rfl, .inr (by omega)⟩
  | fuel + 1, ds, [], placed, h, _ => ⟨[], placed, h, rfl, .inl rfl⟩
  | fuel + 1, ds, n :: ready, placed, h, hf => by
    rw [placeReady_cons]
    exact placeReady_final hG fuel _ _ _ (h.place hG) (by simp only [List.length_cons]; omega)

/-- On an acyclic graph, fuel for every unplaced node places them all. -/
theorem placeReady_complete (hG : GraphShape graph)
    (hA : ∀ a, ¬Relation.TransGen (Precedes graph) a a) (fuel : Nat) (ds : InDegrees)
    (ready placed : List String) (h : KahnState graph ds ready placed)
    (hf : fuel + placed.length = (nodesOf graph).length) :
    (placeReady graph fuel ds ready placed).2.length = (nodesOf graph).length := by
  obtain ⟨ready', placed', h', hres, hend⟩ := placeReady_final hG fuel ds ready placed h hf
  rw [hres, List.length_reverse]
  -- the run stopped with no node ready, so every node is placed
  by_contra hlen
  obtain ⟨k, hk, hkp⟩ := h'.exists_unplaced hG hlen
  obtain ⟨m, hm⟩ := h'.exists_ready hA hk hkp
  rcases hend with rfl | hall
  · simp at hm
  · exact hlen hall

/-- An order with every node rules out a cycle. -/
theorem placeReady_sound (hG : GraphShape graph) (fuel : Nat) (ds : InDegrees)
    (ready placed : List String) (h : KahnState graph ds ready placed)
    (hf : fuel + placed.length = (nodesOf graph).length)
    (hl : (placeReady graph fuel ds ready placed).2.length = (nodesOf graph).length) :
    ∀ a, ¬Relation.TransGen (Precedes graph) a a := by
  obtain ⟨ready', placed', h', hres, -⟩ := placeReady_final hG fuel ds ready placed h hf
  rw [hres, List.length_reverse] at hl
  exact h'.acyclic_of_length hG hl

theorem pendingPreds_nil (hG : GraphShape graph) (k : String) :
    pendingPreds graph [] k = (graph.filter (·.2.contains k)).length := by
  rw [pendingPreds, nodesOf, List.countP_map, ← List.countP_eq_length_filter]
  apply List.countP_congr
  intro e he
  simp [Precedes, dependentsOf_of_mem hG.nodes_nodup he]

/-- The starting state: in-degrees from the graph, the nodes without predecessors ready, and
nothing placed. -/
theorem KahnState.initial (hG : GraphShape graph) :
    KahnState graph (graph.map fun e => (e.1, (graph.filter (·.2.contains e.1)).length))
      (((graph.map fun e => (e.1, (graph.filter (·.2.contains e.1)).length)).filter
        (·.2 = 0)).map (·.1)) [] := by
  have hdeg : ∀ k ∈ nodesOf graph,
      degreeOf (graph.map fun e => (e.1, (graph.filter (·.2.contains e.1)).length)) k
        = pendingPreds graph [] k := by
    intro k hk
    obtain ⟨e, he, rfl⟩ := mem_nodesOf.1 hk
    rw [degreeOf, List.find?_map, pendingPreds_nil hG]
    simp only [Function.comp_def]
    rw [find?_key_eq_of_mem hG.nodes_nodup he]
    rfl
  have hnodes : (graph.map fun e => (e.1, (graph.filter (·.2.contains e.1)).length)).map (·.1)
      = nodesOf graph := by
    simp [nodesOf]
  refine ⟨hnodes, hdeg, ?_, ?_, List.nodup_nil, by simp, by simp⟩
  · intro k
    simp only [List.mem_map, List.mem_filter, decide_eq_true_eq, List.not_mem_nil,
      not_false_eq_true, true_and]
    constructor
    · rintro ⟨_, ⟨⟨e, he, rfl⟩, h0⟩, rfl⟩
      exact ⟨mem_nodesOf.2 ⟨e, he, rfl⟩, (pendingPreds_nil hG e.1).trans h0⟩
    · rintro ⟨hk, h0⟩
      obtain ⟨e, he, rfl⟩ := mem_nodesOf.1 hk
      exact ⟨_, ⟨⟨e, he, rfl⟩, (pendingPreds_nil hG e.1).symm.trans h0⟩, rfl⟩
  · -- the ready nodes are some of the nodes, in order
    apply List.Nodup.sublist _ hG.nodes_nodup
    rw [← hnodes]
    exact List.filter_sublist.map _

/-- Kahn's algorithm, started from the in-degrees of the graph with fuel for every node, places
every node exactly when the graph has no cycle. -/
theorem placeReady_length_iff (hG : GraphShape graph) :
    (placeReady graph graph.length
        (graph.map fun e => (e.1, (graph.filter (·.2.contains e.1)).length))
        (((graph.map fun e => (e.1, (graph.filter (·.2.contains e.1)).length)).filter
          (·.2 = 0)).map (·.1)) []).2.length = graph.length ↔
      ∀ a, ¬Relation.TransGen (Precedes graph) a a := by
  have hlen : graph.length = (nodesOf graph).length := by simp [nodesOf]
  rw [hlen]
  have hf : (nodesOf graph).length + ([] : List String).length = (nodesOf graph).length := by simp
  exact ⟨placeReady_sound hG _ _ _ _ (KahnState.initial hG) hf,
    fun hA => placeReady_complete hG hA _ _ _ _ (KahnState.initial hG) hf⟩

end Runs

end SchemaDesign
