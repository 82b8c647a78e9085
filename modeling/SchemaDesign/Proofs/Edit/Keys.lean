import SchemaDesign.Proofs.Step
import SchemaDesign.Edit.Keys

/-!
# Growing a primary key

A key column is a column of the table's first PRIMARY_KEY constraint (`Table.isKeyColumn`). The
lemmas on tables say what adding a key, putting a key in the place of the key, and growing
constraints in place do to the key columns.

`addToPrimaryKey` puts back the table it read with only its constraints changed, with every key
column kept and every column given in the key (`EditM.addToPrimaryKey_run`). Each of its steps
has its own lemma: `appendKeyColumn` appends one column unless the key holds it,
`withPrimaryKey` gives a table without a key an empty one, and `extendPrimaryKey` appends the
columns to the key, one by one.
-/

namespace SchemaDesign

theorem Constraint.containsColumn_of_subset {k k' : Constraint} (h : k.columns ⊆ k'.columns)
    {c : Id} (hc : k.containsColumn c) : k'.containsColumn c := by
  simp only [Constraint.containsColumn, List.any_eq_true] at hc ⊢
  obtain ⟨e, he, hce⟩ := hc
  exact ⟨e, h he, hce⟩

namespace Table

theorem isKeyColumn_eq {t : Table} {pk : Constraint} (h : t.primaryKey? = some pk) (c : Id) :
    t.isKeyColumn c = pk.containsColumn c := by
  simp [isKeyColumn, h]

theorem kind_of_primaryKey? {t : Table} {pk : Constraint} (h : t.primaryKey? = some pk) :
    pk.kind = .primaryKey := by
  simpa using List.find?_some h

/-- Constraints that keep their kinds and gain columns keep every key column. -/
theorem isKeyColumn_of_forall₂ {t t' : Table}
    (h : List.Forall₂ (fun k k' => k'.kind = k.kind ∧ k.columns ⊆ k'.columns) t.constraints
      t'.constraints) {c : Id} (hc : t.isKeyColumn c) : t'.isKeyColumn c := by
  unfold isKeyColumn primaryKey? at *
  cases hpk : t.constraints.find? (·.kind = .primaryKey) with
  | none => simp [hpk] at hc
  | some pk =>
    rw [hpk] at hc
    have hkind : ∀ (k' k : Constraint), k'.kind = k.kind ∧ k.columns ⊆ k'.columns →
        decide (k.kind = .primaryKey) = decide (k'.kind = .primaryKey) := fun _ _ h => by rw [h.1]
    obtain ⟨pk', hpk', -, hcols⟩ := forall₂_find? hkind h.flip hpk
    rw [hpk']
    exact Constraint.containsColumn_of_subset hcols hc

/-- A key added to a table without one is its key. -/
theorem primaryKey?_append {t : Table} (h : t.primaryKey? = none) {k : Constraint}
    (hk : k.kind = .primaryKey) :
    ({ t with constraints := t.constraints ++ [k] } : Table).primaryKey? = some k := by
  simp only [primaryKey?, List.find?_append] at h ⊢
  simp [h, hk]

/-- A key put in the place of the key is the key. -/
theorem primaryKey?_replace {t : Table} {pk pk' : Constraint} (h : t.primaryKey? = some pk)
    (hk : pk'.kind = .primaryKey) :
    ({ t with constraints := updateFirst (·.kind = .primaryKey) (fun _ => pk') t.constraints } :
      Table).primaryKey? = some pk' := by
  simp only [primaryKey?] at h ⊢
  rw [find?_updateFirst (by simp [hk]), h]
  rfl

end Table

namespace EditM

section Preorder

variable {R : Database → Database → Prop} [IsPreorder Database R]

theorem keeps_freshConstraintName (sid : Id) (base : String) :
    Keeps R (freshConstraintName sid base) :=
  Keeps.bind (keeps_schema sid).of_eq fun _ => Keeps.bind keeps_config.of_eq fun _ => Keeps.pure _

end Preorder

/-- One column appended to a key: the key keeps its kind and entries, and holds the column. -/
theorem appendKeyColumn_run {pk pk' : Constraint} {c : Id} {st st' : Session}
    (h : (appendKeyColumn pk c).run st = .ok pk' st') :
    (st'.db = st.db ∧ pk'.kind = pk.kind ∧ pk.columns ⊆ pk'.columns) ∧ pk'.containsColumn c := by
  unfold appendKeyColumn at h
  split at h
  next hc =>
    obtain ⟨rfl, rfl⟩ := pure_run h
    exact ⟨⟨rfl, rfl, List.Subset.refl _⟩, hc⟩
  next =>
    obtain ⟨id, st₁, h₁, h₂⟩ := run_bind_ok h
    obtain ⟨rfl, rfl⟩ := pure_run h₂
    refine ⟨⟨(keeps_mint _ _ _ h₁).symm, rfl, List.subset_append_left _ _⟩, ?_⟩
    simp [Constraint.containsColumn]

/-- The table as read, with an empty key added when it had none. -/
theorem withPrimaryKey_run {sid tid : Id} {t t' : Table} {st st' : Session}
    (h : (withPrimaryKey sid tid t).run st = .ok t' st') :
    st'.db = st.db ∧ (∃ ks, t' = { t with constraints := ks }) ∧
      (∀ c, t.isKeyColumn c → t'.isKeyColumn c) ∧ t'.primaryKey?.isSome := by
  unfold withPrimaryKey at h
  split at h
  next pk hpk =>
    obtain ⟨rfl, rfl⟩ := pure_run h
    exact ⟨rfl, ⟨t.constraints, rfl⟩, fun _ h => h, by rw [hpk]; rfl⟩
  next hnone =>
    obtain ⟨name, st₁, h₁, h₂⟩ := run_bind_ok h
    obtain ⟨id, st₂, h₃, h₄⟩ := run_bind_ok h₂
    obtain ⟨rfl, rfl⟩ := pure_run h₄
    have hdb₁ : st.db = st₁.db := (keeps_freshConstraintName sid _ : Keeps Eq _) _ _ _ h₁
    have hdb₂ : st₁.db = st₂.db := keeps_mint _ _ _ h₃
    -- a table without a key has no key column to keep
    refine ⟨(hdb₁.trans hdb₂).symm, ⟨_, rfl⟩, fun c hc => ?_, by rw [Table.primaryKey?_append hnone rfl]; rfl⟩
    simp [Table.isKeyColumn, hnone] at hc

/-- The table with the columns appended to its key, when it has one. -/
theorem extendPrimaryKey_run {t t' : Table} {cs : List Id} {st st' : Session}
    (h : (extendPrimaryKey t cs).run st = .ok t' st') :
    st'.db = st.db ∧ (∃ ks, t' = { t with constraints := ks }) ∧
      (∀ c, t.isKeyColumn c → t'.isKeyColumn c) ∧
      (t.primaryKey?.isSome → ∀ c ∈ cs, t'.isKeyColumn c) := by
  unfold extendPrimaryKey at h
  split at h
  next hnone =>
    obtain ⟨rfl, rfl⟩ := pure_run h
    exact ⟨rfl, ⟨t.constraints, rfl⟩, fun _ h => h, by simp [hnone]⟩
  next pk hpk =>
    obtain ⟨pk', st₁, h₁, h₂⟩ := run_bind_ok h
    obtain ⟨rfl, rfl⟩ := pure_run h₂
    -- the key keeps its kind and entries through the fold, and holds each column appended
    obtain ⟨⟨hdb, hkind, hsub⟩, hcont⟩ := foldlM_run
      (fun (k k' : Constraint) db db' => db' = db ∧ k'.kind = k.kind ∧ k.columns ⊆ k'.columns)
      (fun c (k : Constraint) _ => k.containsColumn c = true)
      (fun _ _ => ⟨rfl, rfl, List.Subset.refl _⟩)
      (fun _ _ _ _ _ _ h₁ h₂ => ⟨h₂.1.trans h₁.1, h₂.2.1.trans h₁.2.1,
        List.Subset.trans h₁.2.2 h₂.2.2⟩)
      (fun _ _ _ _ _ hc hΦ => Constraint.containsColumn_of_subset hΦ.2.2 hc)
      (fun _ _ _ _ _ hrun => appendKeyColumn_run hrun) cs pk st pk' st₁ h₁
    have hpk' := Table.primaryKey?_replace hpk (hkind.trans (Table.kind_of_primaryKey? hpk))
    refine ⟨hdb, ⟨_, rfl⟩, fun c hc => ?_, fun _ c hc => ?_⟩
    · rw [Table.isKeyColumn_eq hpk']
      rw [Table.isKeyColumn_eq hpk] at hc
      exact Constraint.containsColumn_of_subset hsub hc
    · rw [Table.isKeyColumn_eq hpk']
      exact hcont c hc

/-- What a successful `addToPrimaryKey` does: it puts back the table it read with other
constraints only, keeping every key column and with every column given in the key. -/
theorem addToPrimaryKey_run {sid tid : Id} {cs : List Id} {st st' : Session} {u : Unit}
    (h : (addToPrimaryKey sid tid cs).run st = .ok u st') :
    ∃ t ks, st.db.FindsTable sid tid t ∧
      st'.db = st.db.updateTable sid tid (fun _ => { t with constraints := ks }) ∧
      (∀ c, t.isKeyColumn c → ({ t with constraints := ks } : Table).isKeyColumn c) ∧
      ∀ c ∈ cs, ({ t with constraints := ks } : Table).isKeyColumn c := by
  unfold addToPrimaryKey at h
  obtain ⟨t, st₁, h₁, h₂⟩ := run_bind_ok h
  obtain ⟨hst₁, ht⟩ := table_run h₁
  obtain ⟨t₁, st₂, h₃, h₄⟩ := run_bind_ok h₂
  obtain ⟨hdb₂, ⟨ks₁, rfl⟩, hkeys₁, hpk₁⟩ := withPrimaryKey_run h₃
  obtain ⟨t₂, st₃, h₅, h₆⟩ := run_bind_ok h₄
  obtain ⟨hdb₃, ⟨ks₂, rfl⟩, hkeys₂, hcs⟩ := extendPrimaryKey_run h₅
  obtain ⟨_, st₄, h₇, h₈⟩ := run_bind_ok h₆
  obtain ⟨hput, -⟩ := modifyTable_run h₇
  obtain ⟨rfl, -⟩ := check_run h₈
  refine ⟨t, ks₂, ht, ?_, fun c hc => hkeys₂ c (hkeys₁ c hc), hcs hpk₁⟩
  rw [hput, hdb₃, hdb₂, hst₁]

end EditM

end SchemaDesign
