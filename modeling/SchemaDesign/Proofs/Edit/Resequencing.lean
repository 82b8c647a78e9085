import SchemaDesign.Proofs.Edit.SequenceSteps
import SchemaDesign.Proofs.Edit.Acyclic

/-!
# Every operation keeps sequences gapless and in order

An accepted snapshot is gapless (`Database.gapless_of_validate`): the check walks every sequence
and refuses the first number out of place. Every operation keeps a gapless snapshot gapless, and
changes each table it keeps as `Operation.Resequences` says (`Editor.apply_keeps_sequences`):

- creating a column puts it at the place asked for, or last, and the rest of the operation
  extends the table;
- moving a column takes it out and puts it back at the place asked for, and changes nothing
  else;
- an operation that removes (`Operation.removes`) trims every table;
- every other operation extends every table.

The operations are taken apart as in the module on steps. Creating or dropping a schema or a
table, and creating or moving a column, change the tables a lookup finds; `Database.Sequenced`
says what such a change does, table by table.
-/

namespace SchemaDesign

/-! ## Accepted snapshots are gapless -/

/-- A fold each of whose steps takes an item numbered one past a count of its accumulator, and
advances the count by one, numbers its items from one past the count it starts from. -/
theorem Except.map_eq_range'_of_foldlM {ε α γ : Type} {body : γ → α → Except ε γ}
    (count : γ → Nat) (pos : α → Nat)
    (hbody : ∀ acc x acc', body acc x = .ok acc' →
      pos x = count acc + 1 ∧ count acc' = count acc + 1) :
    ∀ (xs : List α) (acc r : γ), xs.foldlM body acc = .ok r →
      xs.map pos = List.range' (count acc + 1) xs.length
  | [], _, _, _ => rfl
  | x :: xs, acc, r, h => by
    rw [List.foldlM_cons] at h
    obtain ⟨acc', h₁, h₂⟩ := Except.exists_of_bind_eq_ok h
    obtain ⟨hx, hc⟩ := hbody acc x acc' h₁
    have ih := Except.map_eq_range'_of_foldlM count pos hbody xs acc' r h₂
    rw [hc] at ih
    rw [List.map_cons, ih, hx, List.length_cons, List.range'_succ]

/-- Such a fold, started from a count of zero, leaves its items numbered. -/
theorem Numbered.of_foldlM {ε α γ : Type} {body : γ → α → Except ε γ} (count : γ → Nat)
    {pos : α → Nat}
    (hbody : ∀ acc x acc', body acc x = .ok acc' →
      pos x = count acc + 1 ∧ count acc' = count acc + 1)
    {xs : List α} {acc r : γ} (h0 : count acc = 0) (h : xs.foldlM body acc = .ok r) :
    Numbered pos xs := by
  have hmap := Except.map_eq_range'_of_foldlM count pos hbody xs acc r h
  rwa [h0] at hmap

/-- A table whose parts and relationships are accepted is gapless: each sequence is checked
entry by entry against a running count. -/
theorem Table.gapless_of_validate {s : Schema} {t : Table} {vendor : Vendor}
    (hp : t.validateParts vendor = .ok ()) (hr : t.validateRelationships s = .ok ()) :
    t.Gapless := by
  unfold validateParts at hp
  obtain ⟨_, hcolumns, hp⟩ := Except.exists_of_bind_eq_ok hp
  obtain ⟨_, hindexes, hp⟩ := Except.exists_of_bind_eq_ok hp
  obtain ⟨_, hconstraints, -⟩ := Except.exists_of_bind_eq_ok hp
  refine ⟨?_, ?_, ?_, fun r hr' => ?_⟩
  · -- the column fold counts in the second part of its accumulator
    refine Numbered.of_foldlM Prod.snd (fun acc c acc' hb => ?_) rfl hcolumns
    dsimp only at hb
    split at hb
    · cases hb
    · obtain ⟨_, -, hb⟩ := Except.exists_of_bind_eq_ok hb
      obtain ⟨_, hpos, hb⟩ := Except.exists_of_bind_eq_ok hb
      obtain ⟨_, -, hb⟩ := Except.exists_of_bind_eq_ok hb
      cases hb
      exact ⟨of_decide_eq_true (ensure_eq_ok hpos), rfl⟩
  · refine Except.forall_of_foldlM_eq_ok (fun seen i acc' hb => ?_) _ _ _ hindexes
    obtain ⟨_, -, hb⟩ := Except.exists_of_bind_eq_ok hb
    obtain ⟨_, hfold, -⟩ := Except.exists_of_bind_eq_ok hb
    refine Numbered.of_foldlM (fun n : Nat => n) (fun n c n' hc => ?_) rfl hfold
    obtain ⟨_, hseq, hc⟩ := Except.exists_of_bind_eq_ok hc
    obtain ⟨_, -, hc⟩ := Except.exists_of_bind_eq_ok hc
    cases hc
    exact ⟨of_decide_eq_true (ensure_eq_ok hseq), rfl⟩
  · refine Except.forall_of_foldlM_eq_ok (fun acc k acc' hb => ?_) _ _ _ hconstraints
    dsimp only at hb
    obtain ⟨_, -, hb⟩ := Except.exists_of_bind_eq_ok hb
    obtain ⟨_, -, hb⟩ := Except.exists_of_bind_eq_ok hb
    obtain ⟨_, hfold, -⟩ := Except.exists_of_bind_eq_ok hb
    refine Numbered.of_foldlM (fun n : Nat => n) (fun n c n' hc => ?_) rfl hfold
    obtain ⟨_, hseq, hc⟩ := Except.exists_of_bind_eq_ok hc
    obtain ⟨_, -, hc⟩ := Except.exists_of_bind_eq_ok hc
    cases hc
    exact ⟨of_decide_eq_true (ensure_eq_ok hseq), rfl⟩
  · have hv := Table.validateRelationship_of_validateRelationships hr r hr'
    unfold validateRelationship at hv
    obtain ⟨_, -, hv⟩ := Except.exists_of_bind_eq_ok hv
    split at hv
    · obtain ⟨_, -, hv⟩ := Except.exists_of_bind_eq_ok hv
      obtain ⟨_, hfold, -⟩ := Except.exists_of_bind_eq_ok hv
      refine Numbered.of_foldlM (fun n : Nat => n) (fun n m n' hm => ?_) rfl hfold
      obtain ⟨_, hseq, hm⟩ := Except.exists_of_bind_eq_ok hm
      -- both columns of the mapping are found before the count moves on
      split at hm
      · split at hm
        · obtain ⟨_, -, hm⟩ := Except.exists_of_bind_eq_ok hm
          cases hm
          exact ⟨of_decide_eq_true (ensure_eq_ok hseq), rfl⟩
        · cases hm
      · cases hm
    · cases hv

theorem Database.gapless_of_validate {db : Database} (h : db.validate = .ok ()) : db.Gapless := by
  intro s hs t ht
  have hv := Database.schemas_validate h s hs
  exact Table.gapless_of_validate (Schema.validateParts_of_validate hv t ht)
    (Schema.validateRelationships_of_validate hv t ht)

/-! ## What a change does to the tables a lookup finds -/

/-- How an edit renumbers a snapshot: a gapless snapshot stays gapless, and each table found at
the same place in both snapshots is related to what it was by `R`, given the place. -/
def Database.Sequenced (R : Id → Id → Table → Table → Prop) (db db' : Database) : Prop :=
  (db.Gapless → db'.Gapless) ∧
    ∀ sid tid t t', db.FindsTable sid tid t → db'.FindsTable sid tid t' → R sid tid t t'

namespace Database

variable {T : Table → Table → Prop} {R R' : Id → Id → Table → Table → Prop}
  {db db₁ db₂ : Database}

theorem Gapless.findsTable (h : db.Gapless) {sid tid : Id} {t : Table}
    (ht : db.FindsTable sid tid t) : t.Gapless := by
  obtain ⟨s, hs, ht⟩ := ht
  exact h s (List.mem_of_find?_eq_some hs) t (List.mem_of_find?_eq_some ht)

theorem Gapless.tablewise (hT : ∀ t t', T t t' → t'.id = t.id ∧ (t.Gapless → t'.Gapless))
    (h : db₁.Tablewise T db₂) (hg : db₁.Gapless) : db₂.Gapless := by
  intro s' hs' t' ht'
  obtain ⟨s, hs, -, htables⟩ := forall₂_exists_of_mem_right h.2 hs'
  obtain ⟨t, ht, htt⟩ := forall₂_exists_of_mem_right htables ht'
  exact (hT t t' htt).2 (hg s hs t ht)

theorem Gapless.updateTable (h : db.Gapless) {sid tid : Id} {f : Table → Table}
    (hf : ∀ t, db.FindsTable sid tid t → (f t).Gapless) : (db.updateTable sid tid f).Gapless := by
  intro s' hs' t' ht'
  rcases mem_updateFirst hs' with hs' | ⟨s, hs, rfl⟩
  · exact h s' hs' t' ht'
  · rcases mem_updateFirst ht' with ht' | ⟨t, ht, rfl⟩
    · exact h s (List.mem_of_find?_eq_some hs) t' ht'
    · exact hf t ⟨s, hs, ht⟩

namespace Sequenced

theorem mono (h : db₁.Sequenced R db₂)
    (hR : ∀ sid tid t t', db₁.FindsTable sid tid t → db₂.FindsTable sid tid t' →
      R sid tid t t' → R' sid tid t t') : db₁.Sequenced R' db₂ :=
  ⟨h.1, fun sid tid t t' ht ht' => hR sid tid t t' ht ht' (h.2 sid tid t t' ht ht')⟩

theorem of_tablewise (hT : ∀ t t', T t t' → t'.id = t.id ∧ (t.Gapless → t'.Gapless))
    (h : db₁.Tablewise T db₂) : db₁.Sequenced (fun _ _ => T) db₂ := by
  refine ⟨Gapless.tablewise hT h, fun sid tid t t' ht ht' => ?_⟩
  obtain ⟨t₀, ht₀, htt⟩ := h.findsTable (fun t t' h => (hT t t' h).1) ht'
  rwa [ht₀.unique ht] at htt

theorem of_extends (h : db₁.Extends db₂) : db₁.Sequenced (fun _ _ => Table.Extends) db₂ :=
  of_tablewise (fun _ _ h => ⟨h.id, h.gapless⟩) h

theorem of_trims (h : db₁.Trims db₂) : db₁.Sequenced (fun _ _ => Table.Trims) db₂ :=
  of_tablewise (fun _ _ h => ⟨h.id, h.gapless⟩) h

theorem tablewise {db₃ : Database} (h : db₁.Sequenced R db₂) (h' : db₂.Tablewise T db₃)
    (hT : ∀ t t', T t t' → t'.id = t.id ∧ (t.Gapless → t'.Gapless)) :
    db₁.Sequenced (fun sid tid t t'' => ∃ t', R sid tid t t' ∧ T t' t'') db₃ := by
  refine ⟨Gapless.tablewise hT h' ∘ h.1, fun sid tid t t'' ht ht'' => ?_⟩
  obtain ⟨t', ht', htt⟩ := h'.findsTable (fun t t' h => (hT t t' h).1) ht''
  exact ⟨t', h.2 sid tid t t' ht ht', htt⟩

end Sequenced

theorem Tablewise.sequenced {db₃ : Database} (h : db₁.Tablewise T db₂) (h' : db₂.Sequenced R db₃)
    (hT : ∀ t t', T t t' → t'.id = t.id ∧ (t.Gapless → t'.Gapless)) :
    db₁.Sequenced (fun sid tid t t'' => ∃ t', T t t' ∧ R sid tid t' t'') db₃ := by
  refine ⟨h'.1 ∘ Gapless.tablewise hT h, fun sid tid t t'' ht ht'' => ?_⟩
  obtain ⟨t', ht', htt⟩ := h.findsTable_left (fun t t' h => (hT t t' h).1) ht
  exact ⟨t', htt, h'.2 sid tid t' t'' ht' ht''⟩

/-- A change of schema `sid` that keeps its id leaves what lookups in other schemas find. -/
theorem findsTable_updateSchema_of_ne {sid sid' tid : Id} {g : Schema → Schema}
    (hg : ∀ s, (g s).id = s.id) (hne : sid' ≠ sid) {t : Table} :
    ({ db with schemas := updateFirst (·.id = sid) g db.schemas } : Database).FindsTable sid' tid t ↔
      db.FindsTable sid' tid t := by
  have hdisj : ∀ s : Schema, decide (s.id = sid) = true →
      decide (s.id = sid') = false ∧ decide ((g s).id = sid') = false := by
    intro s hs
    have hs' : s.id = sid := by simpa using hs
    exact ⟨by simp [hs', Ne.symm hne], by simp [hg s, hs', Ne.symm hne]⟩
  simp only [FindsTable, schema?]
  rw [find?_updateFirst_of_disjoint hdisj]

/-- A change of one table that keeps its id leaves what lookups elsewhere find. -/
theorem findsTable_updateTable_elsewhere {sid tid sid' tid' : Id} {f : Table → Table}
    (hf : ∀ t, t.id = tid → (f t).id = tid) (hne : ¬(sid' = sid ∧ tid' = tid)) {t : Table} :
    (db.updateTable sid tid f).FindsTable sid' tid' t ↔ db.FindsTable sid' tid' t := by
  by_cases hsid : sid' = sid
  · subst hsid
    exact findsTable_updateTable_of_ne hf fun h => hne ⟨rfl, h⟩
  · refine findsTable_updateSchema_of_ne ?_ hsid
    intro _
    rfl

/-- Changing the table found at one place by `f`. -/
theorem sequenced_updateTable {sid tid : Id} {f : Table → Table}
    (hid : ∀ t, t.id = tid → (f t).id = tid)
    (hgap : ∀ t, db.FindsTable sid tid t → t.Gapless → (f t).Gapless) :
    db.Sequenced (fun sid' tid' t t' => t' = if sid' = sid ∧ tid' = tid then f t else t)
      (db.updateTable sid tid f) := by
  refine ⟨fun hg => hg.updateTable fun t ht => hgap t ht (hg.findsTable ht),
    fun sid' tid' t t' ht ht' => ?_⟩
  dsimp only
  split
  · next hplace =>
    obtain ⟨rfl, rfl⟩ := hplace
    obtain ⟨t₀, ht₀, rfl⟩ := (findsTable_updateTable hid).1 ht'
    rw [ht₀.unique ht]
  · next hplace => exact ((findsTable_updateTable_elsewhere hid hplace).1 ht').unique ht

/-- A change of schema `sid` that keeps its id, adds only gapless tables, and whose lookups find
what they found before. -/
theorem sequenced_updateSchema {sid : Id} {g : Schema → Schema} (hid : ∀ s, (g s).id = s.id)
    (hmem : ∀ s, ∀ t ∈ (g s).tables, t ∈ s.tables ∨ t.Gapless)
    (hfind : ∀ s tid t t', s.table? tid = some t → (g s).table? tid = some t' → t' = t) :
    db.Sequenced (fun _ _ t t' => t' = t)
      { db with schemas := updateFirst (·.id = sid) g db.schemas } := by
  refine ⟨fun hg s' hs' t' ht' => ?_, fun sid' tid t t' ht ht' => ?_⟩
  · rcases mem_updateFirst hs' with hs' | ⟨s, hs, rfl⟩
    · exact hg s' hs' t' ht'
    · rcases hmem s t' ht' with ht' | hgap
      · exact hg s (List.mem_of_find?_eq_some hs) t' ht'
      · exact hgap
  · by_cases hsid : sid' = sid
    · subst hsid
      obtain ⟨s, hs, ht⟩ := ht
      obtain ⟨s', hs', ht'⟩ := ht'
      simp only [schema?] at hs hs'
      rw [find?_updateFirst (by simp [hid]), hs] at hs'
      cases hs'
      exact hfind s tid t t' ht ht'
    · exact ((findsTable_updateSchema_of_ne hid hsid).1 ht').unique ht

/-- A new list of schemas, each an old one or one without tables, whose lookups find what they
found before. -/
theorem sequenced_of_schemas {schemas : List Schema}
    (hmem : ∀ s ∈ schemas, s ∈ db.schemas ∨ s.tables = [])
    (hfind : ∀ sid s s', db.schema? sid = some s →
      schemas.find? (·.id = sid) = some s' → s' = s) :
    db.Sequenced (fun _ _ t t' => t' = t) { db with schemas } := by
  refine ⟨fun hg s' hs' t' ht' => ?_, fun sid tid t t' ht ht' => ?_⟩
  · rcases hmem s' hs' with hs' | hempty
    · exact hg s' hs' t' ht'
    · rw [hempty] at ht'
      cases ht'
  · obtain ⟨s, hs, ht⟩ := ht
    obtain ⟨s', hs', ht'⟩ := ht'
    obtain rfl := hfind sid s s' hs hs'
    exact Option.some.inj (ht'.symm.trans ht)

end Database

/-! ## What each operation does to the sequences -/

namespace Operation

/-- The operations that remove columns, entries, keys, relationships, tables or schemas. -/
def removes : Operation → Bool
  | .deleteSchema .. | .deleteTable .. | .deleteColumn .. | .deleteIndex ..
  | .removeColumnFromIndex .. | .deleteConstraint .. | .removeColumnFromConstraint ..
  | .deleteRelationship .. | .removeColumnFromRelationship ..
  | .changeColumnNullable _ _ _ true | .changeRelationshipKind _ _ .nonIdentifying => true
  | _ => false

/-- How the operation may change table `tid` of schema `sid`: a created or moved column stands at
the position asked for, an operation that removes trims the table, and any other extends it. -/
def Resequences : Operation → Id → Id → Table → Table → Prop
  | .createColumn s tab d, sid, tid, t, t' =>
    if sid = s ∧ tid = tab then
      1 ≤ d.position.getD (t.columns.length + 1) ∧
        d.position.getD (t.columns.length + 1) ≤ t.columns.length + 1 ∧
        ∃ c : Column, c.id = d.id ∧
          (t.insertColumn (d.position.getD (t.columns.length + 1) - 1) c).Extends t'
    else t.Extends t'
  | .changeColumnPosition s tab cid p, sid, tid, t, t' =>
    if sid = s ∧ tid = tab then
      1 ≤ p ∧ p ≤ t.columns.length ∧ ∃ c ∈ t.columns, c.id = cid ∧ t' = t.moveColumn c (p - 1)
    else t' = t
  | op, _, _, t, t' => if op.removes then t.Trims t' else t.Extends t'

end Operation

namespace EditM

/-! ## Reads that tell what they found -/

theorem Reads.of_returns {α : Type} {Q : α → Prop} {x : EditM α} (hx : Keeps Eq x)
    (hq : Returns Q x) : Reads (fun a _ => Q a) x :=
  fun st a st' hr => ⟨(hx st a st' hr).symm, hq st a st' hr⟩

/-- A fold over drafts numbered on from one past the entries it starts with, which appends one
entry per draft numbered as its draft, returns numbered entries. -/
theorem returns_numbered_zipIdx {δ ε : Type} {pos : ε → Nat}
    {f : List ε → δ × Nat → EditM (List ε)}
    (hf : ∀ acc d n, Returns (fun acc' => ∃ e, pos e = n ∧ acc' = acc ++ [e]) (f acc (d, n))) :
    ∀ (ds : List δ) (acc : List ε), Numbered pos acc →
      Returns (Numbered pos) ((ds.zipIdx (acc.length + 1)).foldlM f acc)
  | [], _, h => Returns.pure h
  | d :: ds, acc, h => by
    rw [List.zipIdx_cons, List.foldlM_cons]
    refine Returns.bind (hf acc d _) fun acc' hacc' => ?_
    obtain ⟨e, he, rfl⟩ := hacc'
    have hrest := returns_numbered_zipIdx hf ds (acc ++ [e]) (h.append_singleton he)
    rwa [List.length_append, List.length_singleton] at hrest

theorem returns_indexColumns (sid tid : Id) (name : String) (ds : List IndexColumnDraft) :
    Returns (Numbered (·.seqNo)) (indexColumns sid tid name ds) := by
  refine returns_numbered_zipIdx (fun acc d n => ?_) ds [] rfl
  dsimp only
  refine Returns.bind_right fun _ => Returns.bind_right fun _ => ?_
  split
  · exact Returns.bind_right fun _ => Returns.pure ⟨_, rfl, rfl⟩
  · exact Returns.pure ⟨_, rfl, rfl⟩

theorem returns_constraintColumns (sid tid : Id) (name : String)
    (ds : List ConstraintColumnDraft) :
    Returns (Numbered (·.seqNo)) (constraintColumns sid tid name ds) := by
  refine returns_numbered_zipIdx (fun acc d n => ?_) ds [] rfl
  dsimp only
  refine Returns.bind_right fun _ => Returns.bind_right fun _ => ?_
  split
  · exact Returns.bind_right fun _ => Returns.pure ⟨_, rfl, rfl⟩
  · exact Returns.pure ⟨_, rfl, rfl⟩

theorem keepsFrom_modifyTable_found {T : Table → Table → Prop} [IsPreorder Table T]
    {P : Database → Prop} {sid tid : Id} {f : Table → Table}
    (h : ∀ db t, P db → db.FindsTable sid tid t → T t (f t)) :
    KeepsFrom P (Database.Tablewise T) (modifyTable sid tid f) :=
  keepsFrom_modifyTable fun _ s t hp hs ht => tablewise_updateTable hs ht (h _ t hp ⟨s, hs, ht⟩)

end EditM

/-! ## Entries renumbered after a removal -/

/-- What is left of the index read before, renumbered, trims the table holding it. -/
theorem Table.trims_renumberIndex {db : Database} {sid tid iid : Id} {i : Index} {t : Table}
    (hi : ∃ t₀, db.FindsTable sid tid t₀ ∧ t₀.index? iid = some i)
    (ht : db.FindsTable sid tid t) (q : IndexColumn → Bool) :
    t.Trims (t.updateIndex iid fun i' =>
      { i' with columns := renumber (fun c n => { c with seqNo := n }) (i.columns.filter q) }) := by
  obtain ⟨t₀, ht₀, hi⟩ := hi
  obtain rfl := ht₀.unique ht
  refine Table.trims_updateIndex fun i₀ hi₀ => ?_
  obtain rfl : i₀ = i := Option.some.inj (hi₀.symm.trans hi)
  exact ⟨Index.outlineShrinks_renumber _ _, numbered_renumberIndexColumns _⟩

/-- What is left of the constraint read before, renumbered, trims the table holding it. -/
theorem Table.trims_renumberConstraint {db : Database} {sid tid kid : Id} {k : Constraint}
    {t : Table} (hk : ∃ t₀, db.FindsTable sid tid t₀ ∧ t₀.constraint? kid = some k)
    (ht : db.FindsTable sid tid t) (q : ConstraintColumn → Bool) :
    t.Trims (t.updateConstraint kid fun k' =>
      { k' with columns := renumber (fun c n => { c with seqNo := n }) (k.columns.filter q) }) := by
  obtain ⟨t₀, ht₀, hk⟩ := hk
  obtain rfl := ht₀.unique ht
  refine Table.trims_updateConstraint fun k₀ hk₀ => ?_
  obtain rfl : k₀ = k := Option.some.inj (hk₀.symm.trans hk)
  exact ⟨Constraint.outlineShrinks_renumber _ _, numbered_renumberConstraintColumns _⟩

namespace EditM

/-! ## Schemas and tables -/

theorem sequenced_createSchema (d : SchemaDraft) :
    Keeps (Database.Sequenced fun _ _ => Table.Extends) (createSchema d) := by
  unfold createSchema
  dsimp only
  refine KeepsFrom.keeps (KeepsFrom.bind_eq (keeps_checkSchemaName _ _) fun _ => ?_)
  refine KeepsFrom.bind_eq (keeps_ensureFreshId _ _) fun _ => ?_
  refine KeepsFrom.bind_reads reads_database fun db => ?_
  refine keepsFrom_setDatabase fun db₀ hdb => ?_
  obtain ⟨-, rfl⟩ := hdb
  refine (Database.sequenced_of_schemas (fun s hs => ?_) fun sid s s' hs hs' => ?_).mono
    fun _ _ t _ _ _ h => h ▸ Table.Extends.refl t
  · rcases List.mem_append.1 hs with hs | hs
    · exact .inl hs
    · exact .inr (by rw [List.mem_singleton.1 hs])
  · rw [List.find?_append, show db.schemas.find? (·.id = sid) = some s from hs] at hs'
    exact Option.some.inj hs'.symm

/-- Deleting a schema leaves what every lookup in the other schemas finds. -/
theorem sequenced_dropSchema (sid : Id) :
    Keeps (Database.Sequenced fun _ _ t t' => t' = t) (deleteSchema sid) := by
  unfold deleteSchema
  refine KeepsFrom.keeps (KeepsFrom.bind_eq (keeps_schema _) fun _ => ?_)
  refine KeepsFrom.bind_reads reads_database fun db => ?_
  refine KeepsFrom.bind_eq keeps_config fun _ => ?_
  have hdrop : KeepsFrom (fun db₀ => True ∧ db = db₀) (Database.Sequenced fun _ _ t t' => t' = t)
      (setDatabase { db with schemas := db.schemas.filter (·.id ≠ sid) }) := by
    refine keepsFrom_setDatabase fun db₀ hdb => ?_
    obtain ⟨-, rfl⟩ := hdb
    refine Database.sequenced_of_schemas (fun s hs => .inl (List.mem_filter.1 hs).1)
      fun sid' s s' hs hs' => ?_
    rw [find?_filter_key_ne Schema.id db.schemas sid sid'] at hs'
    split at hs'
    · cases hs'
    · exact Option.some.inj (hs'.symm.trans hs)
  dsimp only
  split
  · exact (Keeps.throw_bind _ _).keepsFrom
  · exact hdrop

theorem sequenced_deleteSchema (sid : Id) :
    Keeps (Database.Sequenced fun _ _ => Table.Trims) (deleteSchema sid) :=
  (sequenced_dropSchema sid).mono fun _ _ h => h.mono fun _ _ t _ _ _ h => h ▸ Table.Trims.refl t

theorem sequenced_modifySchema {sid : Id} {g : Schema → Schema} (hid : ∀ s, (g s).id = s.id)
    (hmem : ∀ s, ∀ t ∈ (g s).tables, t ∈ s.tables ∨ t.Gapless)
    (hfind : ∀ s tid t t', s.table? tid = some t → (g s).table? tid = some t' → t' = t) :
    Keeps (Database.Sequenced fun _ _ t t' => t' = t) (modifySchema sid g) := by
  intro st u st' h
  rw [(modifySchema_run h).1]
  exact Database.sequenced_updateSchema hid hmem hfind

theorem sequenced_createTable (sid : Id) (d : TableDraft) :
    Keeps (Database.Sequenced fun _ _ => Table.Extends) (createTable sid d) := by
  unfold createTable
  dsimp only
  refine KeepsFrom.keeps (KeepsFrom.bind_eq (keeps_checkTableName _ _ _) fun _ => ?_)
  refine KeepsFrom.bind_eq (keeps_ensureFreshId _ _) fun _ => Keeps.keepsFrom ?_
  refine (sequenced_modifySchema ?_ ?_ ?_).mono fun _ _ h =>
    h.mono fun _ _ t _ _ _ h => h ▸ Table.Extends.refl t
  · intro _
    rfl
  · -- the new table comes last and is empty
    intro s t ht
    rcases List.mem_append.1 ht with ht | ht
    · exact .inl ht
    · rw [List.mem_singleton.1 ht]
      exact .inr ⟨rfl, fun _ h => absurd h List.not_mem_nil, fun _ h => absurd h List.not_mem_nil,
        fun _ h => absurd h List.not_mem_nil⟩
  · intro s tid t t' ht ht'
    rw [Schema.table?, List.find?_append, show s.tables.find? (·.id = tid) = some t from ht] at ht'
    exact Option.some.inj ht'.symm

/-- Dropping a table leaves what every other lookup finds. -/
theorem sequenced_dropTable (sid tid : Id) :
    Keeps (Database.Sequenced fun _ _ t t' => t' = t)
      (modifySchema sid fun s => { s with tables := s.tables.filter (·.id ≠ tid) }) := by
  refine sequenced_modifySchema ?_ ?_ ?_
  · intro _
    rfl
  · exact fun s t ht => .inl (List.mem_filter.1 ht).1
  · intro s x t t' ht ht'
    rw [Schema.table?_filter_ne] at ht'
    split at ht'
    · cases ht'
    · exact Option.some.inj (ht'.symm.trans ht)

/-- Deleting a table deletes the relationships attached to it, which trims every table, then
drops it. -/
theorem sequenced_deleteTable (sid tid : Id) :
    Keeps (Database.Sequenced fun _ _ => Table.Trims) (deleteTable sid tid) := by
  intro st u st'' h
  unfold deleteTable at h
  obtain ⟨t, st₁, h₁, h₂⟩ := run_bind_ok h
  obtain ⟨s, st₂, h₃, h₄⟩ := run_bind_ok h₂
  obtain ⟨_, st₃, h₅, h₆⟩ := run_bind_ok h₄
  have hdb₁ : st.db = st₁.db := keeps_table _ _ _ _ _ h₁
  have hdb₂ : st₁.db = st₂.db := keeps_schema _ _ _ _ h₃
  have htrims : Database.Trims st₂.db st₃.db := by
    refine Keeps.forM (fun rid => ?_) _ _ _ _ h₅
    refine Keeps.bind (keeps_schema _).of_eq fun _ => ?_
    split
    · exact trims_deleteRelationship _ _
    · exact Keeps.pure _
  have hdrop := sequenced_dropTable sid tid _ _ _ h₆
  rw [hdb₁, hdb₂]
  refine (htrims.sequenced hdrop fun _ _ h => ⟨h.id, h.gapless⟩).mono fun _ _ t t'' _ _ h => ?_
  obtain ⟨t', htt, rfl⟩ := h
  exact htt

/-! ## Columns put in place -/

/-- The column put in place, at a position checked to be in range, then steps that extend every
table. -/
theorem keepsFrom_placeColumn {β : Type} {sid tid : Id} {d : ColumnDraft} {t : Table} {c : Column}
    {rest : Unit → EditM β} (hc : c.id = d.id)
    (hbounds : ¬(decide (d.position.getD (t.columns.length + 1) < 1) ||
      decide (d.position.getD (t.columns.length + 1) > t.columns.length + 1)) = true)
    (hrest : ∀ u, Keeps Database.Extends (rest u)) :
    KeepsFrom (Database.FindsTable sid tid t)
      (Database.Sequenced (Operation.createColumn sid tid d).Resequences)
      (modifyTable sid tid (Table.insertColumn (d.position.getD (t.columns.length + 1) - 1) c) >>=
        rest) := by
  intro st b st'' ht h
  obtain ⟨u, st₁, hplace, hafter⟩ := run_bind_ok h
  have hext := hrest u st₁ b st'' hafter
  rw [(modifyTable_run hplace).1] at hext
  refine ((Database.sequenced_updateTable ?_ ?_).tablewise hext
    fun _ _ h => ⟨h.id, h.gapless⟩).mono ?_
  · intro _ h
    exact h
  · intro _ _ h
    exact h.insertColumn _ _
  · intro sid' tid' t₀ t' ht₀ _ h
    obtain ⟨t₁, rfl, h₁⟩ := h
    simp only [Operation.Resequences]
    split_ifs at h₁ ⊢ with hplace
    · obtain ⟨rfl, rfl⟩ := hplace
      obtain rfl := ht₀.unique ht
      simp only [Bool.or_eq_true, decide_eq_true_eq, not_or, not_lt, gt_iff_lt] at hbounds
      exact ⟨hbounds.1, hbounds.2, c, hc, h₁⟩
    · exact h₁

/-- Creating a column puts it in place, after checks, and what follows extends every table. -/
theorem sequenced_createColumn (sid tid : Id) (d : ColumnDraft) :
    Keeps (Database.Sequenced (Operation.createColumn sid tid d).Resequences)
      (createColumn sid tid d) := by
  unfold createColumn
  dsimp only
  refine KeepsFrom.keeps (KeepsFrom.bind_eq (keeps_schema _) fun _ => ?_)
  refine KeepsFrom.bind_eq (keeps_checkColumnName _ _ _ _) fun _ => ?_
  refine KeepsFrom.bind_eq (keeps_ensureFreshId _ _) fun _ => ?_
  refine KeepsFrom.bind_eq (keeps_check _) fun _ => ?_
  refine KeepsFrom.bind_reads (reads_table _ _) fun t => KeepsFrom.mono_left ?_ fun _ h => h.2
  -- past the auto-increment check or not, the same steps follow
  refine KeepsFrom.ite (fun _ => KeepsFrom.bind_eq (keeps_check _) fun _ => ?_) fun _ => ?_
  all_goals
    refine KeepsFrom.ite (fun _ => (Keeps.throw_bind _ _).keepsFrom) fun hbounds => ?_
    refine KeepsFrom.ite (fun _ => KeepsFrom.bind_eq (Keeps.pure _) fun _ => ?_) fun _ =>
      KeepsFrom.bind_eq (Keeps.map _ (keeps_freshConstraintName _ _)) fun _ => ?_
    all_goals
      refine keepsFrom_placeColumn rfl hbounds fun _ => ?_
      split
      on_goal 1 =>
        refine Keeps.bind_reads (reads_notNullConstraint _ _ _) fun _ =>
          KeepsFrom.of_prop fun hk => Keeps.bind (keeps_modifyTable fun t _ =>
            Table.extends_appendConstraint t hk) fun _ => ?_
      all_goals
        exact Keeps.ite (fun _ => Keeps.bind (extends_addToPrimaryKey _ _ _) fun _ =>
          Keeps.bind (extends_propagateKeys _ _ _) fun _ => Keeps.pure _) fun _ => Keeps.pure _

/-- Moving a column puts it at the position asked for, which is checked to be in range. -/
theorem sequenced_changeColumnPosition (sid tid cid : Id) (p : Nat) :
    Keeps (Database.Sequenced (Operation.changeColumnPosition sid tid cid p).Resequences)
      (changeColumnPosition sid tid cid p) := by
  unfold changeColumnPosition putTable
  dsimp only
  refine KeepsFrom.keeps (KeepsFrom.bind_reads (reads_column _ _ _) fun c₀ => ?_)
  refine KeepsFrom.bind_reads (reads_table _ _) fun t => ?_
  split
  · exact (Keeps.throw_bind _ _).keepsFrom
  · next hp =>
    split
    · next hnone =>
      intro st u st' hP _
      obtain ⟨⟨-, t₀, ht₀, hc₀⟩, ht⟩ := hP
      obtain rfl := ht₀.unique ht
      rw [Table.column?, hnone] at hc₀
      cases hc₀
    · next c hc =>
      refine keepsFrom_modifyTable fun db s t₁ hP hs ht₁ => ?_
      obtain ⟨-, ht⟩ := hP
      obtain rfl := ht.unique ⟨s, hs, ht₁⟩
      refine (Database.sequenced_updateTable ?_ ?_).mono ?_
      · intro _ _
        exact ht.id_eq
      · intro t' ht' hg
        obtain rfl := ht'.unique ht
        exact hg.withColumns _
      · intro sid' tid' t₀ t' ht₀ _ h
        simp only [Operation.Resequences]
        split_ifs at h ⊢ with hplace
        · obtain ⟨rfl, rfl⟩ := hplace
          obtain rfl := ht₀.unique ht
          have hcid : c.id = cid := by simpa using List.find?_some hc
          simp only [Bool.or_eq_true, decide_eq_true_eq, not_or, not_lt, gt_iff_lt] at hp
          refine ⟨hp.1, hp.2, c, List.mem_of_find?_eq_some hc, hcid, ?_⟩
          rw [h, Table.moveColumn, hcid]
        · exact h

/-! ## Operations that extend every table -/

theorem extends_changeSchemaName (sid : Id) (name : String) :
    Keeps Database.Extends (changeSchemaName sid name) :=
  Keeps.bind (keeps_schema sid).of_eq fun _ => Keeps.bind (keeps_checkSchemaName _ _) fun _ =>
    keeps_modifySchema fun _ _ => ⟨rfl, List.forall₂_refl _⟩

theorem extends_changeTableName (sid tid : Id) (name : String) :
    Keeps Database.Extends (changeTableName sid tid name) :=
  Keeps.bind (keeps_table _ _).of_eq fun _ => Keeps.bind (keeps_checkTableName _ _ _) fun _ =>
    keeps_modifyTable fun _ _ => Table.Extends.of_layout rfl

theorem extends_changeTableComment (sid tid : Id) (comment : Option String) :
    Keeps Database.Extends (changeTableComment sid tid comment) :=
  keeps_modifyTable fun _ _ => Table.Extends.of_layout rfl

theorem extends_changeColumnName (sid tid cid : Id) (name : String) :
    Keeps Database.Extends (changeColumnName sid tid cid name) :=
  Keeps.bind (keeps_column _ _ _).of_eq fun _ => Keeps.bind (keeps_checkColumnName _ _ _ _) fun _ =>
    keeps_modifyTable fun t _ =>
      Table.Extends.of_layout (Table.layout_updateColumn t _ fun _ => ⟨rfl, rfl⟩)

theorem extends_changeColumnType (sid tid cid : Id) (dataType : Option String)
    (ls : Option LengthScale) : Keeps Database.Extends (changeColumnType sid tid cid dataType ls) :=
  keeps_changeColumnType_of (keeps_modifyTable fun t _ => Table.Extends.of_layout (Table.layout_updateColumn t _ fun _ => ⟨rfl, rfl⟩))
    (tablewise_mirrorTypeChange (fun _ _ h => Table.Extends.of_layout h) _ _ _ _ _)

theorem extends_changeColumnAutoIncrement (sid tid cid : Id) (enabled : Bool) :
    Keeps Database.Extends (changeColumnAutoIncrement sid tid cid enabled) :=
  keeps_changeColumnAutoIncrement_of (keeps_modifyTable fun t _ => Table.Extends.of_layout (Table.layout_updateColumn t _ fun _ => ⟨rfl, rfl⟩))

theorem extends_changeColumnNotNull (sid tid cid : Id) :
    Keeps Database.Extends (changeColumnNullable sid tid cid false) :=
  keeps_changeColumnNullable_of (fun h => absurd h Bool.false_ne_true)
    fun _ _ _ => extends_addNotNull _ _ _ _ _

theorem extends_createIndex (sid tid : Id) (d : IndexDraft) :
    Keeps Database.Extends (createIndex sid tid d) :=
  keeps_createIndex_of (Reads.of_keeps (keeps_checkIndexName _ _ _)) (returns_indexColumns _ _ _ _)
    fun _ hcs => Keeps.keepsFrom (keeps_modifyTable fun t _ => Table.extends_appendIndex t hcs)

theorem extends_changeIndexName (sid tid iid : Id) (name : String) :
    Keeps Database.Extends (changeIndexName sid tid iid name) :=
  Keeps.bind (keeps_index _ _ _) fun _ => Keeps.bind (keeps_checkIndexName _ _ _) fun _ =>
    keeps_modifyTable fun t _ =>
      Table.Extends.of_layout (Table.layout_updateIndex t _ fun _ => ⟨rfl, rfl⟩)

theorem extends_addColumnToIndex (sid tid iid : Id) (d : IndexColumnDraft) :
    Keeps Database.Extends (addColumnToIndex sid tid iid d) :=
  keeps_addColumnToIndex_of (keeps_modifyTable fun t _ => Table.extends_appendIndexEntry t _ _ _ _)

theorem extends_changeIndexColumnSortDir (sid tid iid eid : Id) (sortDir : SortDir) :
    Keeps Database.Extends (changeIndexColumnSortDir sid tid iid eid sortDir) :=
  keeps_changeIndexColumnSortDir_of (keeps_modifyTable fun t _ => Table.Extends.of_layout
    (Table.layout_updateIndex t _ fun _ => ⟨rfl, map_updateFirst_of_key _ fun _ _ => rfl⟩))

theorem extends_createConstraint (sid tid : Id) (d : ConstraintDraft) :
    Keeps Database.Extends (createConstraint sid tid d) :=
  keeps_createConstraint_of (Reads.of_keeps (keeps_checkConstraintName _ _ _))
    (returns_constraintColumns _ _ _ _)
    (fun _ hks => Keeps.keepsFrom (keeps_modifyTable fun t _ => Table.extends_appendConstraint t hks))
    (extends_propagateKeys sid tid)

theorem extends_changeConstraintName (sid tid kid : Id) (name : String) :
    Keeps Database.Extends (changeConstraintName sid tid kid name) :=
  Keeps.bind (keeps_constraint _ _ _) fun _ => Keeps.bind (keeps_checkConstraintName _ _ _) fun _ =>
    keeps_modifyTable fun t _ =>
      Table.Extends.of_layout (Table.layout_updateConstraint t _ fun _ => ⟨rfl, rfl⟩)

theorem extends_addColumnToConstraint (sid tid kid : Id) (d : ConstraintColumnDraft) :
    Keeps Database.Extends (addColumnToConstraint sid tid kid d) :=
  keeps_addColumnToConstraint_of
    (keeps_modifyTable fun t _ => Table.extends_appendConstraintEntry t _ _ _)
    (extends_propagateKeys sid tid)

theorem extends_createRelationship (sid : Id) (d : RelationshipDraft) :
    Keeps Database.Extends (createRelationship sid d) :=
  keeps_createRelationship_of (Reads.of_keeps (keeps_checkRelationshipName _ _ _ _))
    (Keeps.keepsFrom (keeps_modifyTable fun t _ => Table.extends_appendRelationship t rfl))
    (extends_attachForeignKey _ _ _ _) (extends_completeIdentifying _ _)

theorem extends_changeRelationshipName (sid rid : Id) (name : String) :
    Keeps Database.Extends (changeRelationshipName sid rid name) :=
  Keeps.bind (keeps_relationship _ _) fun _ => Keeps.bind (keeps_checkRelationshipName _ _ _ _)
    fun _ => tablewise_modifyRelationship (fun _ _ h => Table.Extends.of_layout h) _ _
      fun _ => ⟨rfl, rfl⟩

theorem extends_changeRelationshipCardinality (sid rid : Id) (cardinality : Cardinality) :
    Keeps Database.Extends (changeRelationshipCardinality sid rid cardinality) :=
  Keeps.bind (tablewise_modifyRelationship (fun _ _ h => Table.Extends.of_layout h) _ _
    fun _ => ⟨rfl, rfl⟩) fun _ => keeps_revalidateRelationship _ _

theorem extends_changeRelationshipActions (sid rid : Id) (onDelete onUpdate : ReferentialAction) :
    Keeps Database.Extends (changeRelationshipActions sid rid onDelete onUpdate) :=
  Keeps.bind (tablewise_modifyRelationship (fun _ _ h => Table.Extends.of_layout h) _ _
    fun _ => ⟨rfl, rfl⟩) fun _ => keeps_revalidateRelationship _ _

theorem extends_makeIdentifying (sid rid : Id) :
    Keeps Database.Extends (changeRelationshipKind sid rid .identifying) :=
  keeps_makeIdentifying_of
    (tablewise_modifyRelationship (fun _ _ h => Table.Extends.of_layout h) _ _ fun _ => ⟨rfl, rfl⟩)
    (extends_completeIdentifying _ _)

theorem extends_addColumnToRelationship (sid rid : Id) (m : MappingDraft) :
    Keeps Database.Extends (addColumnToRelationship sid rid m) :=
  keeps_addColumnToRelationship_of (fun _ _ => extends_attachForeignKey _ _ _ _ _)
    (extends_addToPrimaryKey sid) (extends_propagateKeys sid)

/-! ## Operations that trim every table -/

theorem trims_deleteColumn (sid tid cid : Id) : Keeps Database.Trims (deleteColumn sid tid cid) :=
  keeps_deleteColumn_of (trims_cascadeKeyRemoval sid)
    (keeps_modifyTable fun t _ => Table.trims_detachColumn t _)

theorem trims_changeColumnNullable (sid tid cid : Id) :
    Keeps Database.Trims (changeColumnNullable sid tid cid true) :=
  keeps_changeColumnNullable_of (fun _ => keeps_modifyTable fun t _ => Table.trims_filterConstraints t _)
    fun h => absurd h (by decide)

theorem trims_deleteIndex (sid tid iid : Id) : Keeps Database.Trims (deleteIndex sid tid iid) :=
  Keeps.bind (keeps_index _ _ _) fun _ => keeps_modifyTable fun t _ => Table.trims_filterIndexes t _

theorem trims_removeColumnFromIndex (sid tid iid eid : Id) :
    Keeps Database.Trims (removeColumnFromIndex sid tid iid eid) :=
  keeps_removeColumnFromIndex_of (keeps_modifyTable fun t _ => Table.trims_filterIndexes t _)
    fun _ => keepsFrom_modifyTable_found fun _ _ hi ht => Table.trims_renumberIndex hi ht _

theorem trims_deleteConstraint (sid tid kid : Id) :
    Keeps Database.Trims (deleteConstraint sid tid kid) :=
  keeps_deleteConstraint_of (keeps_modifyTable fun t _ => Table.trims_filterConstraints t _)
    (trims_cascadeKeyRemoval sid)

theorem trims_removeColumnFromConstraint (sid tid kid eid : Id) :
    Keeps Database.Trims (removeColumnFromConstraint sid tid kid eid) :=
  keeps_removeColumnFromConstraint_of (keeps_modifyTable fun t _ => Table.trims_filterConstraints t _)
    (fun _ => keepsFrom_modifyTable_found fun _ _ hk ht => Table.trims_renumberConstraint hk ht _)
    (trims_cascadeKeyRemoval sid)

theorem trims_makeNonIdentifying (sid rid : Id) :
    Keeps Database.Trims (changeRelationshipKind sid rid .nonIdentifying) :=
  keeps_makeNonIdentifying_of
    (tablewise_modifyRelationship (fun _ _ h => Table.Trims.of_layout h) _ _ fun _ => ⟨rfl, rfl⟩)
    (trims_removeFromPrimaryKey sid) (trims_cascadeKeyRemoval sid)

theorem trims_removeColumnFromRelationship (sid rid mid : Id) :
    Keeps Database.Trims (removeColumnFromRelationship sid rid mid) :=
  keeps_removeColumnFromRelationship_of
    (fun _ => keeps_modifyTable fun t _ => Table.trims_editRelationship t _ _)
    (trims_releaseFkColumns sid)

end EditM

namespace Operation

open EditM in
/-- Every operation keeps a gapless snapshot gapless and changes each table it keeps as
`Resequences` says. -/
theorem sequenced_run : ∀ op : Operation, Keeps (Database.Sequenced op.Resequences) op.run
  | .createSchema d => sequenced_createSchema d
  | .deleteSchema s => sequenced_deleteSchema s
  | .changeSchemaName s n => (extends_changeSchemaName s n).mono fun _ _ h => .of_extends h
  | .createTable s d => sequenced_createTable s d
  | .deleteTable s t => sequenced_deleteTable s t
  | .changeTableName s t n => (extends_changeTableName s t n).mono fun _ _ h => .of_extends h
  | .changeTableComment s t c => (extends_changeTableComment s t c).mono fun _ _ h => .of_extends h
  | .createColumn s t d => sequenced_createColumn s t d
  | .deleteColumn s t c => (trims_deleteColumn s t c).mono fun _ _ h => .of_trims h
  | .changeColumnName s t c n => (extends_changeColumnName s t c n).mono fun _ _ h => .of_extends h
  | .changeColumnType s t c dt ls =>
    (extends_changeColumnType s t c dt ls).mono fun _ _ h => .of_extends h
  | .changeColumnPosition s t c p => sequenced_changeColumnPosition s t c p
  | .changeColumnNullable s t c true =>
    (trims_changeColumnNullable s t c).mono fun _ _ h => .of_trims h
  | .changeColumnNullable s t c false =>
    (extends_changeColumnNotNull s t c).mono fun _ _ h => .of_extends h
  | .changeColumnAutoIncrement s t c b =>
    (extends_changeColumnAutoIncrement s t c b).mono fun _ _ h => .of_extends h
  | .createIndex s t d => (extends_createIndex s t d).mono fun _ _ h => .of_extends h
  | .deleteIndex s t i => (trims_deleteIndex s t i).mono fun _ _ h => .of_trims h
  | .changeIndexName s t i n => (extends_changeIndexName s t i n).mono fun _ _ h => .of_extends h
  | .addColumnToIndex s t i d => (extends_addColumnToIndex s t i d).mono fun _ _ h => .of_extends h
  | .removeColumnFromIndex s t i e =>
    (trims_removeColumnFromIndex s t i e).mono fun _ _ h => .of_trims h
  | .changeIndexColumnSortDir s t i e d =>
    (extends_changeIndexColumnSortDir s t i e d).mono fun _ _ h => .of_extends h
  | .createConstraint s t d => (extends_createConstraint s t d).mono fun _ _ h => .of_extends h
  | .deleteConstraint s t k => (trims_deleteConstraint s t k).mono fun _ _ h => .of_trims h
  | .changeConstraintName s t k n =>
    (extends_changeConstraintName s t k n).mono fun _ _ h => .of_extends h
  | .addColumnToConstraint s t k d =>
    (extends_addColumnToConstraint s t k d).mono fun _ _ h => .of_extends h
  | .removeColumnFromConstraint s t k e =>
    (trims_removeColumnFromConstraint s t k e).mono fun _ _ h => .of_trims h
  | .createRelationship s d => (extends_createRelationship s d).mono fun _ _ h => .of_extends h
  | .deleteRelationship s r => (trims_deleteRelationship s r).mono fun _ _ h => .of_trims h
  | .changeRelationshipName s r n =>
    (extends_changeRelationshipName s r n).mono fun _ _ h => .of_extends h
  | .changeRelationshipCardinality s r c =>
    (extends_changeRelationshipCardinality s r c).mono fun _ _ h => .of_extends h
  | .changeRelationshipKind s r .identifying =>
    (extends_makeIdentifying s r).mono fun _ _ h => .of_extends h
  | .changeRelationshipKind s r .nonIdentifying =>
    (trims_makeNonIdentifying s r).mono fun _ _ h => .of_trims h
  | .changeRelationshipActions s r d u =>
    (extends_changeRelationshipActions s r d u).mono fun _ _ h => .of_extends h
  | .addColumnToRelationship s r m =>
    (extends_addColumnToRelationship s r m).mono fun _ _ h => .of_extends h
  | .removeColumnFromRelationship s r m =>
    (trims_removeColumnFromRelationship s r m).mono fun _ _ h => .of_trims h

end Operation

/-- **Every accepted operation keeps every table gapless**: columns and the entries of indexes,
constraints and relationships stay numbered 1, 2, …, each table changed as
`Operation.Resequences` says. -/
theorem Editor.apply_keeps_sequences {config : EditorConfig} {supply : IdSupply}
    {db db' : Database} {op : Operation} (hv : db.validate = .ok ())
    (happ : (Editor.apply config supply db op).result = .ok db') :
    db'.Gapless ∧ ∀ sid tid t t', db.FindsTable sid tid t → db'.FindsTable sid tid t' →
      op.Resequences sid tid t t' := by
  unfold Editor.apply at happ
  split at happ
  next st hrun =>
    cases happ
    have h := op.sequenced_run _ _ _ hrun
    exact ⟨h.1 (Database.gapless_of_validate hv), h.2⟩
  next => cases happ

/-- A column `note` created at position 1 of `lines`, before `qty`. -/
def noteFirst : Operation :=
  .createColumn ⟨"s"⟩ ⟨"lines"⟩
    { id := ⟨"note"⟩, name := "note", dataType := some "INT", position := some 1 }

set_option maxRecDepth 100000 in
theorem Editor.noteFirst_keeps_sequences :
    ordersAndLines.validate = .ok () ∧
      ∃ db', (Editor.apply {} { seed := 0 } ordersAndLines noteFirst).result = .ok db' ∧
        db'.Gapless ∧ ∀ sid tid t t', ordersAndLines.FindsTable sid tid t →
          db'.FindsTable sid tid t' → noteFirst.Resequences sid tid t t' := by
  have hv : ordersAndLines.validate = .ok () := by rfl
  obtain ⟨db', happ⟩ : ∃ db', (Editor.apply {} { seed := 0 } ordersAndLines noteFirst).result =
      .ok db' := ⟨_, rfl⟩
  exact ⟨hv, db', happ, Editor.apply_keeps_sequences hv happ⟩

end SchemaDesign
