import Mathlib
import SchemaDesign.Graph

/-!
# The provider search is a reachability test

`Schema.reachesProvider s a b ignore` runs a depth-first search from `a` along identifying
relationships other than `ignore`, with fuel `s.relationships.length + 1`. The search answers
exactly whether `b` is reachable from `a` in that many steps or more, so the fuel is never what
stops it.

Main statement `reachesProvider_iff`: the search says yes exactly when `b` is reached from `a`
by the reflexive-transitive closure of `ProviderStep`.

Soundness only needs that the stack holds tables reached from the start. Completeness rests
on two facts kept by every step of the search: the visited tables are closed under steps up to
what is still on the stack, and `searchWork`, the stack plus the relationships of the tables not
yet expanded, never exceeds the fuel left.
-/

namespace SchemaDesign

namespace Schema

/-- One step of the provider search: `b` provides for `a` through an identifying relationship
other than `ignore`. -/
def ProviderStep (s : Schema) (ignore : Option Id) (a b : Id) : Prop :=
  b ∈ s.identifyingProviders a ignore

/-- What the search still has to do: the tables on its stack, and the relationships of the
tables it has not expanded. -/
def searchWork (s : Schema) (stack visited : List Id) : Nat :=
  stack.length + (s.tables.map fun t => if t.id ∈ visited then 0 else t.relationships.length).sum

/-- A table has at most as many providers as relationships. -/
theorem identifyingProviders_length_le {s : Schema} {a : Id} {t : Table}
    (ht : s.table? a = some t) (ignore : Option Id) :
    (s.identifyingProviders a ignore).length ≤ t.relationships.length := by
  simp only [identifyingProviders, ht, List.length_map]
  exact List.length_filter_le _ _

/-- The relationships of the tables not yet expanded, the second part of `searchWork`. -/
theorem sum_unexpanded_cons_le (l : List Table) (a : Id) (visited : List Id) :
    (l.map fun t => if t.id ∈ a :: visited then 0 else t.relationships.length).sum
      ≤ (l.map fun t => if t.id ∈ visited then 0 else t.relationships.length).sum := by
  apply List.sum_le_sum
  intro u _
  split_ifs <;> simp_all

/-- Marking a table as expanded frees at least its own relationships. -/
theorem sum_unexpanded_visit {l : List Table} {t₀ : Table} (h₀ : t₀ ∈ l) {a : Id}
    (ha : t₀.id = a) (visited : List Id) (hv : a ∉ visited) :
    (l.map fun t => if t.id ∈ a :: visited then 0 else t.relationships.length).sum
        + t₀.relationships.length
      ≤ (l.map fun t => if t.id ∈ visited then 0 else t.relationships.length).sum := by
  induction l with
  | nil => simp at h₀
  | cons t l ih =>
    simp only [List.map_cons, List.sum_cons]
    rcases List.mem_cons.1 h₀ with rfl | h₀
    · have := sum_unexpanded_cons_le l a visited
      have h₁ : t₀.id ∈ a :: visited := by simp [ha]
      have h₂ : t₀.id ∉ visited := ha ▸ hv
      rw [if_pos h₁, if_neg h₂]
      omega
    · have := ih h₀
      have hhead : (if t.id ∈ a :: visited then 0 else t.relationships.length)
          ≤ if t.id ∈ visited then 0 else t.relationships.length := by
        split_ifs <;> simp_all
      omega

/-- Expanding an unvisited table pays for the providers it pushes. -/
theorem searchWork_expand (s : Schema) {current : Id} {visited : List Id}
    (hv : current ∉ visited) (rest : List Id) {next : List Id} {ignore : Option Id}
    (hnext : next.length ≤ (s.identifyingProviders current ignore).length) :
    s.searchWork (next.reverse ++ rest) (current :: visited) + 1
      ≤ s.searchWork (current :: rest) visited := by
  simp only [searchWork, List.length_append, List.length_reverse, List.length_cons]
  cases hs : s.table? current with
  | none =>
    have := sum_unexpanded_cons_le s.tables current visited
    simp only [identifyingProviders, hs, List.length_nil, Nat.le_zero] at hnext
    omega
  | some t =>
    have hp := identifyingProviders_length_le hs ignore
    have hsum := sum_unexpanded_visit (List.mem_of_find?_eq_some hs)
      (by simpa using List.find?_some hs) visited hv
    omega

/-- The visited tables are closed under steps, up to the tables still on the stack. -/
def ClosedUpTo (s : Schema) (ignore : Option Id) (stack visited : List Id) : Prop :=
  ∀ v ∈ visited, ∀ w, s.ProviderStep ignore v w → w ∈ visited ∨ w ∈ stack

/-- Once the stack is empty, the visited tables are closed under steps. -/
theorem ClosedUpTo.mem_of_reaches {s : Schema} {ignore : Option Id} {visited : List Id}
    (hc : s.ClosedUpTo ignore [] visited) {x y : Id} (hx : x ∈ visited)
    (hr : Relation.ReflTransGen (s.ProviderStep ignore) x y) : y ∈ visited := by
  induction hr with
  | refl => exact hx
  | tail _ hstep ih =>
    rcases hc _ ih _ hstep with h | h
    · exact h
    · simp at h

/-- Once the stack is empty, nothing outside the visited tables is reached from them. -/
theorem ClosedUpTo.not_reaches {s : Schema} {ignore : Option Id} {visited : List Id}
    (hc : s.ClosedUpTo ignore [] visited) {goal : Id} (hg : goal ∉ visited) :
    ∀ x ∈ visited, ¬Relation.ReflTransGen (s.ProviderStep ignore) x goal :=
  fun _ hx hr => hg (hc.mem_of_reaches hx hr)

/-- Dropping a visited table from the stack keeps the closure. -/
theorem ClosedUpTo.pop {s : Schema} {ignore : Option Id} {current : Id} {rest visited : List Id}
    (hc : s.ClosedUpTo ignore (current :: rest) visited) (hv : current ∈ visited) :
    s.ClosedUpTo ignore rest visited := by
  intro v hv' w hstep
  rcases hc v hv' w hstep with hw | hw
  · exact .inl hw
  · rcases List.mem_cons.1 hw with rfl | hw
    · exact .inl hv
    · exact .inr hw

/-- Expanding a table, pushing its providers not yet visited, keeps the closure. -/
theorem ClosedUpTo.expand {s : Schema} {ignore : Option Id} {current : Id}
    {rest visited : List Id} (hc : s.ClosedUpTo ignore (current :: rest) visited) :
    s.ClosedUpTo ignore (((s.identifyingProviders current ignore).filter
      (fun x => !(current :: visited).contains x)).reverse ++ rest) (current :: visited) := by
  intro v hv w hstep
  by_cases hw : w ∈ current :: visited
  · exact .inl hw
  rcases List.mem_cons.1 hv with rfl | hv
  · -- a provider of the expanded table was pushed unless already visited
    refine .inr (List.mem_append_left _ (List.mem_reverse.2 (List.mem_filter.2 ⟨hstep, ?_⟩)))
    simpa [List.contains_iff_mem] using hw
  · rcases hc v hv w hstep with h | h
    · exact absurd (List.mem_cons_of_mem _ h) hw
    · rcases List.mem_cons.1 h with rfl | h
      · exact absurd List.mem_cons_self hw
      · exact .inr (List.mem_append_right _ h)

/-- Every yes of the search is a path from a table of the stack. -/
theorem searchProviders_sound (s : Schema) (goal : Id) (ignore : Option Id) :
    ∀ {fuel : Nat} {stack visited : List Id},
      s.searchProviders goal ignore fuel stack visited = true →
      ∃ x ∈ stack, Relation.ReflTransGen (s.ProviderStep ignore) x goal
  | 0, _, _, h => by simp [searchProviders] at h
  | _ + 1, [], _, h => by simp [searchProviders] at h
  | fuel + 1, current :: stack, visited, h => by
    unfold searchProviders at h
    split_ifs at h with hg hv
    · exact ⟨current, List.mem_cons_self, hg ▸ .refl⟩
    · obtain ⟨x, hx, hr⟩ := searchProviders_sound s goal ignore h
      exact ⟨x, List.mem_cons_of_mem _ hx, hr⟩
    · obtain ⟨x, hx, hr⟩ := searchProviders_sound s goal ignore h
      rcases List.mem_append.1 hx with hx | hx
      · -- `x` was pushed as a provider of `current`
        have hstep : s.ProviderStep ignore current x := (List.mem_filter.1 (List.mem_reverse.1 hx)).1
        exact ⟨current, List.mem_cons_self, .head hstep hr⟩
      · exact ⟨x, List.mem_cons_of_mem _ hx, hr⟩

/-- Every no of the search is complete: no table of the stack or of the visited ones reaches
the goal, as long as the fuel covers the work left. -/
theorem searchProviders_complete (s : Schema) (goal : Id) (ignore : Option Id) :
    ∀ {fuel : Nat} {stack visited : List Id}, s.searchWork stack visited ≤ fuel →
      goal ∉ visited → s.ClosedUpTo ignore stack visited →
      s.searchProviders goal ignore fuel stack visited = false →
      ∀ x ∈ stack ++ visited, ¬Relation.ReflTransGen (s.ProviderStep ignore) x goal
  | 0, stack, visited, hw, hg, hc, _ => by
    have : stack = [] := List.eq_nil_of_length_eq_zero (by simp only [searchWork] at hw; omega)
    subst this
    exact hc.not_reaches hg
  | _ + 1, [], visited, _, hg, hc, _ => hc.not_reaches hg
  | fuel + 1, current :: rest, visited, hw, hg, hc, h => by
    unfold searchProviders at h
    split_ifs at h with hcur hv
    · simp only [List.contains_iff_mem] at hv
      have hw' : s.searchWork rest visited ≤ fuel := by
        simp only [searchWork, List.length_cons] at hw ⊢
        omega
      have ih := searchProviders_complete s goal ignore hw' hg (hc.pop hv) h
      intro x hx
      apply ih x
      -- the popped table is among the visited ones
      simp only [List.mem_append, List.mem_cons] at hx ⊢
      rcases hx with (rfl | hx) | hx <;> simp_all
    · simp only [List.contains_iff_mem] at hv
      have hw' := searchWork_expand s hv rest (List.length_filter_le
        (fun x => !(current :: visited).contains x) (s.identifyingProviders current ignore))
      have hg' : goal ∉ current :: visited := by
        simp only [List.mem_cons, not_or]
        exact ⟨fun h => hcur h.symm, hg⟩
      have ih := searchProviders_complete s goal ignore (by omega) hg' hc.expand h
      intro x hx
      apply ih x
      simp only [List.mem_append, List.mem_cons] at hx ⊢
      tauto

/-- The provider search answers exactly whether `goal` is reached from `start`. -/
theorem reachesProvider_iff (s : Schema) (start goal : Id) (ignore : Option Id) :
    s.reachesProvider start goal ignore = true ↔
      Relation.ReflTransGen (s.ProviderStep ignore) start goal := by
  constructor
  · intro h
    obtain ⟨x, hx, hr⟩ := searchProviders_sound s goal ignore h
    obtain rfl := List.mem_singleton.1 hx
    exact hr
  · intro hr
    by_contra h
    have hw : s.searchWork [start] [] ≤ s.relationships.length + 1 := by
      simp [searchWork, relationships, List.length_flatMap, Nat.add_comm]
    have hc : s.ClosedUpTo ignore [start] [] := by simp [ClosedUpTo]
    exact searchProviders_complete s goal ignore hw List.not_mem_nil hc
      (Bool.eq_false_iff.2 h) start (by simp) hr

end Schema

end SchemaDesign
