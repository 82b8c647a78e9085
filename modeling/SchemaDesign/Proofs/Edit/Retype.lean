import SchemaDesign.Proofs.Edit.Worklists
import SchemaDesign.Proofs.Validation

/-!
# Changing a column's type reaches every column that references it

`changeColumnType` checks the new type against the vendor, against the column's auto-increment
flag and against the columns the column itself references, retypes it, and then mirrors the new
type into every column that references it, transitively, with a worklist and a visited list
(`mirrorLoop`). The mirrored columns are not checked.

Main statement `EditM.changeColumnType_spec`: a successful change retypes the column and every
column fed from it through a chain of mappings (`Schema.FeedsType`), and nothing else; every
other field of the snapshot stays as it was.

Retyping never changes a relationship, so the mappings the loop follows are those of the
snapshot it starts from. Completeness rests on `MirrorClosed`: a visited pair is still queued, or
its dependents are visited and retyped. The fuel covers the queue and the mapping pairs not yet
visited (`queueWork`), so the loop stops with an empty queue, and the visited pairs are then
closed under dependents.
-/

namespace SchemaDesign

/-- A column given the type `dt` and the descriptor `ls`. -/
def Column.retype (dt : Option String) (ls : Option LengthScale) (c : Column) : Column :=
  { c with dataType := dt, lengthScale := ls }

section Retype

variable {dt : Option String} {ls : Option LengthScale}

@[simp] theorem Column.retype_id (c : Column) : (c.retype dt ls).id = c.id := rfl

@[simp] theorem Column.retype_dataType (c : Column) : (c.retype dt ls).dataType = dt := rfl

@[simp] theorem Column.retype_lengthScale (c : Column) : (c.retype dt ls).lengthScale = ls := rfl

@[simp] theorem Column.retype_isAutoIncrement (c : Column) :
    (c.retype dt ls).isAutoIncrement = c.isAutoIncrement := rfl

@[simp] theorem Column.retype_retype (c : Column) : (c.retype dt ls).retype dt ls = c.retype dt ls :=
  rfl

/-! ## Snapshots that differ in column types -/

/-- Table `t'` is `t` with some of its columns retyped to `dt` and `ls`, each at a pair of table and
column id that `S` allows. -/
def Table.RetypedAt (dt : Option String) (ls : Option LengthScale) (S : Id × Id → Prop)
    (t t' : Table) : Prop :=
  t' = { t with columns := t'.columns } ∧
    List.Forall₂ (fun c c' => c' = c ∨ c' = c.retype dt ls ∧ S (t.id, c.id)) t.columns t'.columns

/-- Snapshot `db'` is `db` with some columns of schema `sid` retyped to `dt` and `ls`, each at a pair
of table and column id that `S` allows. -/
def Database.RetypedAt (sid : Id) (dt : Option String) (ls : Option LengthScale)
    (S : Id × Id → Prop) (db db' : Database) : Prop :=
  db'.id = db.id ∧
    List.Forall₂ (fun s s' => s' = { s with tables := s'.tables } ∧
      List.Forall₂ (Table.RetypedAt dt ls fun p => s.id = sid ∧ S p) s.tables s'.tables)
      db.schemas db'.schemas

namespace Table.RetypedAt

variable {S : Id × Id → Prop} {t t' : Table}

theorem id_eq (h : t.RetypedAt dt ls S t') : t'.id = t.id := by
  rw [h.1]

theorem relationships_eq (h : t.RetypedAt dt ls S t') : t'.relationships = t.relationships := by
  rw [h.1]

theorem refl (t : Table) : t.RetypedAt dt ls S t :=
  ⟨rfl, List.forall₂_same.2 fun _ _ => .inl rfl⟩

theorem trans {t'' : Table} (h₁ : t.RetypedAt dt ls S t') (h₂ : t'.RetypedAt dt ls S t'') :
    t.RetypedAt dt ls S t'' := by
  obtain ⟨ht', hcols₁⟩ := h₁
  obtain ⟨ht'', hcols₂⟩ := h₂
  have hid : t'.id = t.id := by rw [ht']
  rw [hid] at hcols₂
  refine ⟨by rw [ht'', ht'], forall₂_trans ?_ hcols₁ hcols₂⟩
  -- a column retyped twice is retyped once, at the pair allowed the first time
  rintro c c' c'' (rfl | ⟨rfl, hS⟩) (rfl | ⟨rfl, hS'⟩)
  · exact .inl rfl
  · exact .inr ⟨rfl, hS'⟩
  · exact .inr ⟨rfl, hS⟩
  · exact .inr ⟨rfl, hS⟩

instance : IsPreorder Table (Table.RetypedAt dt ls S) where
  refl := refl
  trans _ _ _ := trans

theorem mono {S' : Id × Id → Prop} (hS : ∀ p, S p → S' p) (h : t.RetypedAt dt ls S t') :
    t.RetypedAt dt ls S' t' :=
  ⟨h.1, h.2.imp fun _ _ hc => hc.imp_right fun hc => ⟨hc.1, hS _ hc.2⟩⟩

theorem column? (h : t.RetypedAt dt ls S t') {x : Id} {c' : Column} (hc : t'.column? x = some c') :
    ∃ c, t.column? x = some c ∧ (c' = c ∨ c' = c.retype dt ls ∧ S (t.id, c.id)) := by
  refine forall₂_find? ?_ h.2 hc
  rintro c _ (rfl | ⟨rfl, -⟩) <;> rfl

end Table.RetypedAt

namespace Database.RetypedAt

variable {sid : Id} {S : Id × Id → Prop} {db db' db'' : Database}

theorem refl (db : Database) : db.RetypedAt sid dt ls S db :=
  ⟨rfl, List.forall₂_same.2 fun _ _ => ⟨rfl, List.forall₂_same.2 fun t _ => Table.RetypedAt.refl t⟩⟩

theorem trans (h₁ : db.RetypedAt sid dt ls S db') (h₂ : db'.RetypedAt sid dt ls S db'') :
    db.RetypedAt sid dt ls S db'' := by
  refine ⟨h₂.1.trans h₁.1, forall₂_trans ?_ h₁.2 h₂.2⟩
  rintro s s' s'' ⟨hs', htables₁⟩ ⟨hs'', htables₂⟩
  have hid : s'.id = s.id := by rw [hs']
  rw [hid] at htables₂
  exact ⟨by rw [hs'', hs'], forall₂_trans (fun _ _ _ h₁ h₂ => h₁.trans h₂) htables₁ htables₂⟩

instance : IsPreorder Database (Database.RetypedAt sid dt ls S) where
  refl := refl
  trans _ _ _ := trans

theorem tablewise (h : db.RetypedAt sid dt ls S db') : db.Tablewise (Table.RetypedAt dt ls S) db' :=
  ⟨h.1, h.2.imp fun _ _ hs => ⟨by rw [hs.1], hs.2.imp fun _ _ => Table.RetypedAt.mono fun _ h => h.2⟩⟩

theorem schema? (h : db.RetypedAt sid dt ls S db') {x : Id} {s' : Schema}
    (hs' : db'.schema? x = some s') :
    ∃ s, db.schema? x = some s ∧ s' = { s with tables := s'.tables } ∧
      List.Forall₂ (Table.RetypedAt dt ls fun p => s.id = sid ∧ S p) s.tables s'.tables := by
  refine forall₂_find? ?_ h.2 hs'
  rintro s s' ⟨hs, -⟩
  rw [hs]

/-- Retyping keeps every id, so the labelled ids are the same. -/
theorem labelledIds_eq (h : db.RetypedAt sid dt ls S db') : db'.labelledIds = db.labelledIds := by
  obtain ⟨hid, hschemas⟩ := h
  have htable : ∀ t t' : Table, Table.RetypedAt dt ls (fun _ => True) t t' →
      t'.labelledIds = t.labelledIds := by
    intro t t' ⟨ht', hcols⟩
    have hmap : t'.columns.map (·.id) = t.columns.map (·.id) :=
      forall₂_map_eq hcols fun _ _ hc => by rcases hc with rfl | ⟨rfl, -⟩ <;> rfl
    have hcols' : t'.columns.map (fun c => ("column", c.id)) = t.columns.map (fun c => ("column", c.id)) := by
      have := congrArg (List.map fun i : Id => ("column", i)) hmap
      rw [List.map_map, List.map_map] at this
      exact this
    rw [ht']
    simp only [Table.labelledIds, hcols']
  have hschema : ∀ s s' : Schema, s' = { s with tables := s'.tables } ∧
      List.Forall₂ (Table.RetypedAt dt ls fun p => s.id = sid ∧ S p) s.tables s'.tables →
      ("schema", s'.id) :: s'.tables.flatMap Table.labelledIds =
        ("schema", s.id) :: s.tables.flatMap Table.labelledIds := by
    rintro s s' ⟨hs', htables⟩
    have hid' : s'.id = s.id := by rw [hs']
    rw [hid', List.flatMap_def, List.flatMap_def,
      forall₂_map_eq htables fun t t' ht => htable t t' (ht.mono fun _ _ => trivial)]
  rw [labelledIds, labelledIds, hid, List.flatMap_def, List.flatMap_def, forall₂_map_eq hschemas hschema]

end Database.RetypedAt

theorem Schema.relationships_eq_of_retypedAt {S : Id × Id → Prop} {s s' : Schema}
    (h : List.Forall₂ (Table.RetypedAt dt ls S) s.tables s'.tables) :
    s'.relationships = s.relationships := by
  rw [Schema.relationships, Schema.relationships, List.flatMap_def, List.flatMap_def,
    forall₂_map_eq h fun _ _ ht => ht.relationships_eq]

/-- In schema `sid` of the snapshot, the column at pair `p`, where its table and it are found,
has the type `dt` and the descriptor `ls`. -/
def Database.TypedAt (sid : Id) (dt : Option String) (ls : Option LengthScale) (db : Database)
    (p : Id × Id) : Prop :=
  ∀ t, db.FindsTable sid p.1 t → ∀ c, t.column? p.2 = some c → c.dataType = dt ∧ c.lengthScale = ls

theorem Database.TypedAt.of_retypedAt {sid : Id} {S : Id × Id → Prop} {db db' : Database}
    {p : Id × Id} (h : db.RetypedAt sid dt ls S db') (hp : db.TypedAt sid dt ls p) :
    db'.TypedAt sid dt ls p := by
  intro t' ht' c' hc'
  obtain ⟨t, ht, htt⟩ := h.tablewise.findsTable (fun _ _ h => h.id_eq) ht'
  obtain ⟨c, hc, rfl | ⟨rfl, -⟩⟩ := htt.column? hc'
  · exact hp t ht _ hc
  · exact ⟨rfl, rfl⟩

namespace EditM

variable {sid : Id} {S : Id × Id → Prop}

/-- Retyping column `c` of table `h`, where `S` allows it, relates the snapshots. -/
theorem keeps_retypeColumn {h c : Id} (hS : S (h, c)) :
    Keeps (Database.RetypedAt sid dt ls S)
      (modifyTable sid h fun t => { t with columns := updateFirst (·.id = c) (Column.retype dt ls) t.columns }) := by
  intro st u st' hrun
  rw [(modifyTable_run hrun).1]
  refine ⟨rfl, forall₂_updateFirst (fun s => ⟨rfl, List.forall₂_same.2 fun t _ => .refl t⟩) _ _ _ ?_⟩
  intro s hs
  have hsid : s.id = sid := by simpa using List.find?_some hs
  refine ⟨rfl, forall₂_updateFirst (fun t => .refl t) _ _ _ fun t ht => ⟨rfl, ?_⟩⟩
  have htid : t.id = h := by simpa using List.find?_some ht
  refine forall₂_updateFirst (fun _ => .inl rfl) _ _ _ fun col hcol => .inr ⟨rfl, hsid, ?_⟩
  have hcid : col.id = c := by simpa using List.find?_some hcol
  rw [htid, hcid]
  exact hS

theorem ensures_retypeColumn (h c : Id) :
    Ensures (fun db => db.TypedAt sid dt ls (h, c))
      (modifyTable sid h fun t => { t with columns := updateFirst (·.id = c) (Column.retype dt ls) t.columns }) := by
  refine ensures_modifyTable (fun _ h => h) fun t _ col hcol => ?_
  change (updateFirst (·.id = c) (Column.retype dt ls) t.columns).find? (·.id = c) = some col at hcol
  rw [@find?_updateFirst _ (fun x : Column => decide (x.id = c)) (Column.retype dt ls) (fun _ hx => hx) t.columns] at hcol
  obtain ⟨col₀, -, rfl⟩ := Option.map_eq_some_iff.1 hcol
  exact ⟨rfl, rfl⟩

end EditM

/-! ## The columns a change of type reaches -/

/-- The columns that take their type from column `p.2` of table `p.1`, as pairs of table and
column id: the holder columns of the mappings onto it, in relationship and mapping order. -/
def Schema.typeDependents (s : Schema) (p : Id × Id) : List (Id × Id) :=
  (s.referencing p.1).flatMap fun r =>
    (r.columns.filter (·.pkColumnId = p.2)).map fun m => (r.fkTableId, m.fkColumnId)

/-- Column `q` takes its type from column `p` through a chain of one or more mappings. -/
def Schema.FeedsType (s : Schema) (p q : Id × Id) : Prop :=
  Relation.TransGen (fun a b => b ∈ s.typeDependents a) p q

/-- The columns a change of type at `p` reaches: `p` itself and every column it feeds. -/
def Schema.Mirrored (s : Schema) (p q : Id × Id) : Prop := q = p ∨ s.FeedsType p q

namespace Schema

variable {s : Schema}

theorem mem_typeDependents {p q : Id × Id} :
    q ∈ s.typeDependents p ↔
      ∃ r ∈ s.referencing p.1, ∃ m ∈ r.columns, m.pkColumnId = p.2 ∧ (r.fkTableId, m.fkColumnId) = q := by
  simp only [typeDependents, List.mem_flatMap, List.mem_map, List.mem_filter, decide_eq_true_eq]
  constructor
  · rintro ⟨r, hr, m, ⟨hm, hkey⟩, rfl⟩
    exact ⟨r, hr, m, hm, hkey, rfl⟩
  · rintro ⟨r, hr, m, hm, hkey, rfl⟩
    exact ⟨r, hr, m, ⟨hm, hkey⟩, rfl⟩

theorem typeDependents_eq {s' : Schema} (h : s'.relationships = s.relationships) :
    s'.typeDependents = s.typeDependents := by
  funext p
  simp only [typeDependents, referencing, h]

theorem Mirrored.feedsType {p q q' : Id × Id} (h : s.Mirrored p q) (hq : q' ∈ s.typeDependents q) :
    s.FeedsType p q' := by
  rcases h with rfl | h
  · exact .single hq
  · exact .tail h hq

end Schema

/-- The visited pairs of the mirroring, but for those still queued, have their dependents
visited and retyped. -/
def MirrorClosed (s : Schema) (sid : Id) (dt : Option String) (ls : Option LengthScale)
    (db : Database) (work visited : List (Id × Id)) : Prop :=
  ∀ v ∈ visited, v ∈ work ∨ ∀ w ∈ s.typeDependents v, w ∈ visited ∧ db.TypedAt sid dt ls w

/-- Once the queue is empty, every column fed from a visited pair is visited and retyped. -/
theorem MirrorClosed.typedAt_of_feedsType {s : Schema} {sid : Id} {db : Database}
    {V : List (Id × Id)} (hc : MirrorClosed s sid dt ls db [] V) {p q : Id × Id} (hp : p ∈ V)
    (hq : s.FeedsType p q) : q ∈ V ∧ db.TypedAt sid dt ls q := by
  induction hq with
  | single h => exact ((hc p hp).resolve_left List.not_mem_nil) _ h
  | tail _ h ih => exact ((hc _ ih.1).resolve_left List.not_mem_nil) _ h

/-- What mirroring does over part of a round to its queue, its visited pairs and the snapshot: it
retypes columns `S` allows, keeps what was queued and visited, queues each pair it visits for the
first time, queues only pairs `S` allows, and does not add to the work left. -/
structure MirrorRound (sid : Id) (dt : Option String) (ls : Option LengthScale)
    (S : Id × Id → Prop) (pairs : List (Id × Id)) (acc acc' : List (Id × Id) × List (Id × Id))
    (db db' : Database) : Prop where
  retyped : db.RetypedAt sid dt ls S db'
  visited_mono : ∀ x ∈ acc.2, x ∈ acc'.2
  work_mono : ∀ x ∈ acc.1, x ∈ acc'.1
  queued : ∀ x ∈ acc'.2, x ∈ acc.2 ∨ x ∈ acc'.1
  allowed : ∀ x ∈ acc'.1, x ∈ acc.1 ∨ S x
  work_le : queueWork pairs acc'.1.length acc'.2 ≤ queueWork pairs acc.1.length acc.2

namespace MirrorRound

variable {sid : Id} {S : Id × Id → Prop} {pairs : List (Id × Id)}

theorem refl (acc : List (Id × Id) × List (Id × Id)) (db : Database) :
    MirrorRound sid dt ls S pairs acc acc db db :=
  ⟨.refl db, fun _ h => h, fun _ h => h, fun _ h => .inl h, fun _ h => .inl h, le_refl _⟩

theorem trans {acc₁ acc₂ acc₃ : List (Id × Id) × List (Id × Id)} {db₁ db₂ db₃ : Database}
    (h₁ : MirrorRound sid dt ls S pairs acc₁ acc₂ db₁ db₂)
    (h₂ : MirrorRound sid dt ls S pairs acc₂ acc₃ db₂ db₃) :
    MirrorRound sid dt ls S pairs acc₁ acc₃ db₁ db₃ where
  retyped := h₁.retyped.trans h₂.retyped
  visited_mono x hx := h₂.visited_mono x (h₁.visited_mono x hx)
  work_mono x hx := h₂.work_mono x (h₁.work_mono x hx)
  queued x hx := (h₂.queued x hx).elim (fun h => (h₁.queued x h).imp_right (h₂.work_mono x)) .inr
  allowed x hx := (h₂.allowed x hx).elim (h₁.allowed x) .inr
  work_le := h₂.work_le.trans h₁.work_le

end MirrorRound

namespace EditM

variable {sid : Id} {s : Schema} {db₀ : Database}

/-- The mirroring loop, with the fuel the work left needs, retypes only columns the change at
`p₀` reaches and ends with the visited pairs closed: by induction on the fuel. -/
theorem mirrorLoop_closes (hs : db₀.schema? sid = some s) (p₀ : Id × Id) :
    ∀ (fuel : Nat) (work visited : List (Id × Id)) (st st' : Session) (u : Unit),
      db₀.RetypedAt sid dt ls (s.Mirrored p₀) st.db → (∀ v ∈ work, s.Mirrored p₀ v) →
      MirrorClosed s sid dt ls st.db work visited →
      queueWork (db₀.fkPairs sid) work.length visited ≤ fuel →
      (mirrorLoop sid dt ls fuel work visited).run st = .ok u st' →
      st.db.RetypedAt sid dt ls (s.Mirrored p₀) st'.db ∧
        ∃ V, (∀ v ∈ visited, v ∈ V) ∧ MirrorClosed s sid dt ls st'.db [] V
  | 0, [], visited, st, st', u, _, _, hc, _, h => by
    rw [mirrorLoop] at h
    obtain ⟨-, rfl⟩ := pure_run h
    exact ⟨.refl _, visited, fun _ h => h, hc⟩
  | 0, _ :: _, _, _, _, _, _, _, _, hw, _ => by simp [queueWork] at hw
  | fuel + 1, [], visited, st, st', u, _, _, hc, _, h => by
    rw [mirrorLoop] at h
    obtain ⟨-, rfl⟩ := pure_run h
    exact ⟨.refl _, visited, fun _ h => h, hc⟩
  | fuel + 1, (p, key) :: rest, visited, st, st', u, hrel, hwork, hc, hw, h => by
    rw [mirrorLoop] at h
    obtain ⟨s₁, st₁, h₁, h₂⟩ := run_bind_ok h
    obtain ⟨rfl, hs₁⟩ := schema_run h₁
    -- the schema read has the relationships of `s`: retyping changed none
    have hdeps : s₁.typeDependents = s.typeDependents := by
      obtain ⟨s₀, hs₀, -, htables⟩ := hrel.schema? hs₁
      rw [hs, Option.some.injEq] at hs₀
      subst hs₀
      exact Schema.typeDependents_eq (Schema.relationships_eq_of_retypedAt htables)
    obtain ⟨acc, st₂, h₃, h₄⟩ := run_bind_ok h₂
    have hfold := foldlM_run_mem
      (MirrorRound sid dt ls (s.Mirrored p₀) (db₀.fkPairs sid))
      (fun (a : Id × Id) (acc : List (Id × Id) × List (Id × Id)) (db : Database) =>
        a ∈ acc.2 ∧ db.TypedAt sid dt ls a) MirrorRound.refl
      (fun _ _ _ _ _ _ h₁ h₂ => MirrorRound.trans h₁ h₂)
      (fun _ _ _ _ _ hP hΦ => ⟨MirrorRound.visited_mono hΦ _ hP.1,
        Database.TypedAt.of_retypedAt (MirrorRound.retyped hΦ) hP.2⟩) _ ?_ _ _ _ _ h₃
    · obtain ⟨rest', visited'⟩ := acc
      obtain ⟨hround, hitems⟩ := hfold
      have hw' : queueWork (db₀.fkPairs sid) rest'.length visited' ≤ fuel := by
        have hle := hround.work_le
        simp only [queueWork, List.length_cons] at hle hw ⊢
        omega
      have hclosed : MirrorClosed s sid dt ls st₂.db rest' visited' := by
        intro v hv
        rcases hround.queued v hv with hv | hv
        · rcases hc v hv with hq | hdone
          · rcases List.mem_cons.1 hq with rfl | hq
            · -- the pair of this round: its dependents were just visited and retyped
              exact .inr fun w hw => hitems w (by show w ∈ s₁.typeDependents (p, key); rw [hdeps]; exact hw)
            · exact .inl (hround.work_mono v hq)
          · exact .inr fun w hw =>
              ⟨hround.visited_mono w (hdone w hw).1, (hdone w hw).2.of_retypedAt hround.retyped⟩
        · exact .inl hv
      obtain ⟨hrel', V, hV, hV'⟩ := mirrorLoop_closes hs p₀ fuel rest' visited' st₂ st' u
        (hrel.trans hround.retyped)
        (fun v hv => (hround.allowed v hv).elim (fun h => hwork v (List.mem_cons_of_mem _ h)) id)
        hclosed hw' h₄
      exact ⟨hround.retyped.trans hrel', V, fun v hv => hV v (hround.visited_mono v hv), hV'⟩
    · -- one dependent: retype it, then queue and visit it unless visited
      rintro ⟨h, fk⟩ ha ⟨rest₀, visited₀⟩ st₃ b' st₄ hstep
      have ha' : (h, fk) ∈ s.typeDependents (p, key) := by
        rw [← hdeps]
        exact ha
      have hS : s.Mirrored p₀ (h, fk) := .inr ((hwork _ List.mem_cons_self).feedsType ha')
      have hpair : (h, fk) ∈ db₀.fkPairs sid := by
        obtain ⟨r, hr, m, hm, -, heq⟩ := Schema.mem_typeDependents.1 ha'
        cases heq
        exact Database.mem_fkPairs hs hr hm
      dsimp only at hstep
      obtain ⟨_, st₅, hretype, hrest⟩ := run_bind_ok hstep
      have hrel₅ := keeps_retypeColumn hS _ _ _ hretype
      have htyped := ensures_retypeColumn h fk _ _ _ hretype
      split at hrest
      · next hvis =>
        obtain ⟨rfl, rfl⟩ := pure_run hrest
        exact ⟨⟨hrel₅, fun _ h => h, fun _ h => h, fun _ h => .inl h, fun _ h => .inl h, le_refl _⟩,
          by simpa using hvis, htyped⟩
      · next hnew =>
        obtain ⟨rfl, rfl⟩ := pure_run hrest
        refine ⟨⟨hrel₅, fun _ h => List.mem_append_left _ h, fun _ h => List.mem_append_left _ h,
          fun x hx => ?_, fun x hx => ?_, queueWork_step hpair (by simpa using hnew)⟩,
          List.mem_append_right _ (List.mem_singleton_self _), htyped⟩
        · rcases List.mem_append.1 hx with hx | hx
          · exact .inl hx
          · exact .inr (List.mem_append_right _ hx)
        · rcases List.mem_append.1 hx with hx | hx
          · exact .inl hx
          · rw [List.mem_singleton.1 hx]
            exact .inr hS

/-- A successful change of type passed its checks on the snapshot it started from, and retypes
the column and every column it feeds, and nothing else. -/
theorem changeColumnType_spec {tid cid : Id} {st st' : Session} {u : Unit}
    (hs : st.db.schema? sid = some s) (h : (changeColumnType sid tid cid dt ls).run st = .ok u st') :
    st.db.RetypedAt sid dt ls (s.Mirrored (tid, cid)) st'.db ∧
      (∀ q, s.Mirrored (tid, cid) q → st'.db.TypedAt sid dt ls q) ∧
      checkDataType s.vendor dt ls = .ok () ∧
      ∃ t c, st.db.FindsTable sid tid t ∧ t.column? cid = some c ∧
        (c.isAutoIncrement = true → dt.any s.vendor.isIntegerType = true) ∧
        s.incompatibleReference? t (c.retype dt ls) = none := by
  unfold changeColumnType at h
  obtain ⟨s₀, st₁, h₁, h₂⟩ := run_bind_ok h
  obtain ⟨hst₁, hs₀⟩ := schema_run h₁
  subst st₁
  rw [hs, Option.some.injEq] at hs₀
  subst hs₀
  obtain ⟨c, st₂, h₃, h₄⟩ := run_bind_ok h₂
  obtain ⟨hst₂, s', t, hs', ht, hc⟩ := column_run h₃
  subst st₂
  rw [hs, Option.some.injEq] at hs'
  subst hs'
  obtain ⟨_, st₃, h₅, h₆⟩ := run_bind_ok h₄
  obtain ⟨hst₃, hty⟩ := check_run h₅
  subst st₃
  dsimp only at h₆
  split at h₆
  · obtain ⟨_, _, h₇, -⟩ := run_bind_ok h₆
    cases h₇
  next hauto =>
  obtain ⟨s₁, st₄, h₇, h₈⟩ := run_bind_ok h₆
  obtain ⟨hst₄, hs₁⟩ := schema_run h₇
  subst st₄
  rw [hs, Option.some.injEq] at hs₁
  subst hs₁
  obtain ⟨t₁, st₅, h₉, h₁₀⟩ := run_bind_ok h₈
  obtain ⟨hst₅, ht₁⟩ := table_run h₉
  subst st₅
  have ht₁t : t₁ = t := Database.FindsTable.unique ht₁ ⟨_, hs, ht⟩
  subst ht₁t
  split at h₁₀
  · obtain ⟨_, _, h₁₁, -⟩ := run_bind_ok h₁₀
    cases h₁₁
  next hcompat =>
  obtain ⟨_, st₆, h₁₁, h₁₂⟩ := run_bind_ok h₁₀
  have hrel₆ : st.db.RetypedAt sid dt ls (s.Mirrored (tid, cid)) st₆.db :=
    keeps_retypeColumn (.inl rfl) _ _ _ h₁₁
  have htyped₆ : st₆.db.TypedAt sid dt ls (tid, cid) := ensures_retypeColumn tid cid _ _ _ h₁₁
  unfold mirrorTypeChange at h₁₂
  obtain ⟨s₂, st₇, h₁₃, h₁₄⟩ := run_bind_ok h₁₂
  obtain ⟨hst₇, hs₂⟩ := schema_run h₁₃
  subst st₇
  -- the fuel covers the queued pair and every mapping pair of the schema
  have hfuel :
      queueWork (st.db.fkPairs sid) [(tid, cid)].length [(tid, cid)] ≤ s₂.mappingCount + 1 := by
    obtain ⟨s₀, hs₀, -, htables⟩ := hrel₆.schema? hs₂
    rw [hs, Option.some.injEq] at hs₀
    subst hs₀
    have hcount : s₂.mappingCount = s.mappingCount := by
      simp only [Schema.mappingCount, Schema.relationships_eq_of_retypedAt htables]
    have hlen := List.length_filter_le (fun p => !([(tid, cid)] : List (Id × Id)).contains p)
      (st.db.fkPairs sid)
    rw [Database.fkPairs_length hs] at hlen
    simp only [queueWork, List.length_singleton]
    omega
  obtain ⟨hloop, V, hV, hclosed⟩ := mirrorLoop_closes hs (tid, cid) _ _ _ st₆ st' u hrel₆
    (fun v hv => .inl (List.mem_singleton.1 hv)) (fun v hv => .inl hv) hfuel h₁₄
  refine ⟨hrel₆.trans hloop, ?_, hty, _, c, ⟨_, hs, ht⟩, hc, ?_, ?_⟩
  · rintro q (rfl | hq)
    · exact htyped₆.of_retypedAt hloop
    · exact (hclosed.typedAt_of_feedsType (hV _ (List.mem_singleton_self _)) hq).2
  · intro hauto'
    simpa [hauto'] using hauto
  · cases hr : s.incompatibleReference? _ (c.retype dt ls) with
    | none => rfl
    | some r => exact absurd hr (hcompat r)

end EditM

end Retype

end SchemaDesign
