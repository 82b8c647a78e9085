import SchemaDesign.Proofs.Edit.TypeRules
import SchemaDesign.Proofs.Edit.NameScopes

/-!
# Runs that refuse

Most facts about the edit steps read a successful run backwards: from `x.run st = .ok a st'`
they recover what each step found. A refusal is shown the other way, forwards: each lookup of
the operation finds what the snapshot holds, and the run goes on to the check that throws. The
lemmas below compute runs forward, one per lookup of the session, and find the parts of an
accepted snapshot by their ids: with distinct ids, a lookup finds the part it is asked for.
-/

namespace SchemaDesign

namespace EditM

variable {α β : Type} {st st' : Session}

/-- A `bind` whose first step succeeds runs on with its value and session. -/
theorem run_bind_of_ok {x : EditM α} {f : α → EditM β} {a : α} (h : x.run st = .ok a st') :
    (x >>= f).run st = (f a).run st' := by
  simp only [EStateM.run, bind, EStateM.bind] at h ⊢
  rw [h]

/-- A `bind` whose first step refuses refuses with the same error. -/
theorem run_bind_of_error {x : EditM α} {f : α → EditM β} {e : DesignError}
    (h : x.run st = .error e st') : (x >>= f).run st = .error e st' := by
  simp only [EStateM.run, bind, EStateM.bind] at h ⊢
  rw [h]

@[simp]
theorem run_throw (e : DesignError) (st : Session) : (throw e : EditM α).run st = .error e st :=
  rfl

@[simp]
theorem run_pure (a : α) (st : Session) : (pure a : EditM α).run st = .ok a st := rfl

theorem run_database (st : Session) : database.run st = .ok st.db st := rfl

variable {sid tid : Id} {s : Schema} {t : Table}

theorem run_schema (hs : st.db.schema? sid = some s) : (schema sid).run st = .ok s st := by
  unfold schema
  rw [run_bind_of_ok (run_database st), hs]
  rfl

theorem run_table (hs : st.db.schema? sid = some s) (ht : s.table? tid = some t) :
    (table sid tid).run st = .ok t st := by
  unfold table
  rw [run_bind_of_ok (run_schema hs), ht]
  rfl

theorem run_column {cid : Id} {c : Column} (hs : st.db.schema? sid = some s)
    (ht : s.table? tid = some t) (hc : t.column? cid = some c) :
    (column sid tid cid).run st = .ok c st := by
  unfold column
  rw [run_bind_of_ok (run_table hs ht), hc]
  rfl

theorem run_constraint {kid : Id} {k : Constraint} (hs : st.db.schema? sid = some s)
    (ht : s.table? tid = some t) (hk : t.constraint? kid = some k) :
    (constraint sid tid kid).run st = .ok k st := by
  unfold constraint
  rw [run_bind_of_ok (run_table hs ht), hk]
  rfl

theorem run_relationship {rid : Id} {found : Table × Relationship}
    (hs : st.db.schema? sid = some s) (hr : s.relationship? rid = some found) :
    (relationship sid rid).run st = .ok found st := by
  unfold relationship
  rw [run_bind_of_ok (run_schema hs), hr]
  rfl

theorem run_provider (hs : st.db.schema? sid = some s) (ht : s.table? tid = some t) :
    (provider sid tid).run st = .ok t st := by
  unfold provider
  rw [run_bind_of_ok (run_schema hs), ht]
  rfl

theorem run_check {r : Except DesignError Unit} (h : r = .ok ()) (st : Session) :
    (check r).run st = .ok () st := by
  subst h
  rfl

/-! ### What a step can refuse with -/

/-- Every refusal of `x` satisfies `P`. -/
def RefusesOnly (P : DesignError → Prop) (x : EditM α) : Prop :=
  ∀ st e st', x.run st = .error e st' → P e

variable {P : DesignError → Prop}

theorem RefusesOnly.pure (a : α) : RefusesOnly P (pure a : EditM α) := by
  intro st e st' h
  rw [run_pure] at h
  cases h

theorem RefusesOnly.throw {e : DesignError} (he : P e) : RefusesOnly P (throw e : EditM α) := by
  intro st e' st' h
  rw [run_throw] at h
  cases h
  exact he

theorem RefusesOnly.bind {x : EditM α} {f : α → EditM β} (hx : RefusesOnly P x)
    (hf : ∀ a, RefusesOnly P (f a)) : RefusesOnly P (x >>= f) := by
  intro st e st'' h
  cases hrun : x.run st with
  | ok a st' =>
    rw [run_bind_of_ok hrun] at h
    exact hf a st' e st'' h
  | error e' st' =>
    rw [run_bind_of_error hrun, EStateM.Result.error.injEq] at h
    exact h.1 ▸ hx st e' st' hrun

theorem RefusesOnly.foldlM {f : β → α → EditM β} (hf : ∀ b a, RefusesOnly P (f b a)) :
    ∀ (xs : List α) (b : β), RefusesOnly P (xs.foldlM f b)
  | [], b => .pure b
  | a :: xs, b => by
    rw [List.foldlM_cons]
    exact (hf b a).bind fun b' => RefusesOnly.foldlM hf xs b'

theorem refusesOnly_database : RefusesOnly P database := by
  intro st e st' h
  rw [run_database] at h
  cases h

theorem refusesOnly_setDatabase (db : Database) : RefusesOnly P (setDatabase db) := by
  intro st e st' h
  have hrun : (setDatabase db).run st = .ok () { st with db } := rfl
  rw [hrun] at h
  cases h

/-! A lookup refuses only when what it looks for is missing. -/

section Lookups

variable (hS : ∀ x, P (.schemaNotExist x)) (hT : ∀ x, P (.tableNotExist x))
include hS

theorem refusesOnly_schema (sid : Id) : RefusesOnly P (schema sid) := by
  unfold schema
  refine refusesOnly_database.bind fun db => ?_
  split
  · exact .pure _
  · exact .throw (hS _)

theorem refusesOnly_modifySchema (sid : Id) (f : Schema → Schema) :
    RefusesOnly P (modifySchema sid f) := by
  unfold modifySchema
  exact (refusesOnly_schema hS sid).bind fun _ =>
    refusesOnly_database.bind fun _ => refusesOnly_setDatabase _

include hT

theorem refusesOnly_table (sid tid : Id) : RefusesOnly P (table sid tid) := by
  unfold table
  refine (refusesOnly_schema hS sid).bind fun s => ?_
  split
  · exact .pure _
  · exact .throw (hT _)

theorem refusesOnly_modifyTable (sid tid : Id) (f : Table → Table) :
    RefusesOnly P (modifyTable sid tid f) := by
  unfold modifyTable
  exact (refusesOnly_table hS hT sid tid).bind fun _ => refusesOnly_modifySchema hS sid _

end Lookups

end EditM

/-- An operation whose run refuses gives no snapshot, only the refusal. -/
theorem Editor.apply_result_of_error {config : EditorConfig} {supply : IdSupply} {db : Database}
    {op : Operation} {e : DesignError} {st : Session}
    (h : op.run.run { db, config, supply } = .error e st) :
    (Editor.apply config supply db op).result = .error e := by
  unfold Editor.apply
  rw [h]

/-! ## Parts of an accepted snapshot found by id -/

/-- A constraint's entries and a relationship's mappings have their ids among the table's. -/
theorem Table.partIds_sublist_labelledIds (t : Table) :
    (∀ k ∈ t.constraints, (k.columns.map (·.id)).Sublist (t.labelledIds.map (·.2))) ∧
      ∀ r ∈ t.relationships, (r.columns.map (·.id)).Sublist (t.labelledIds.map (·.2)) := by
  simp only [Table.labelledIds, List.map_append, List.map_flatMap]
  constructor
  · intro k hk
    have hin : (k.columns.map (·.id)).Sublist
        (t.constraints.flatMap fun k => (("constraint", k.id) :: k.columns.map fun c =>
          ("constraint column", c.id)).map (·.2)) :=
      (List.Sublist.cons _ (by simp [Function.comp_def])).trans
        (List.sublist_flatten_of_mem (List.mem_map_of_mem hk))
    exact (hin.trans (List.sublist_append_right _ _)).trans (List.sublist_append_left _ _)
  · intro r hr
    have hin : (r.columns.map (·.id)).Sublist
        (t.relationships.flatMap fun r => (("relationship", r.id) :: r.columns.map fun m =>
          ("relationship column", m.id)).map (·.2)) :=
      (List.Sublist.cons _ (by simp [Function.comp_def])).trans
        (List.sublist_flatten_of_mem (List.mem_map_of_mem hr))
    exact hin.trans (List.sublist_append_right _ _)

namespace Database

variable {db : Database} (hn : (db.labelledIds.map (·.2)).Nodup) {s : Schema} (hs : s ∈ db.schemas)
  {t : Table} (ht : t ∈ s.tables)
include hn hs ht

theorem table_labelledIds_nodup : (t.labelledIds.map (·.2)).Nodup := by
  refine List.Nodup.sublist ?_ hn
  refine List.Sublist.trans ?_ (tables_labelledIds_sublist hs)
  rw [List.map_flatMap]
  exact List.sublist_flatten_of_mem (List.mem_map_of_mem ht)

theorem constraint?_of_mem {k : Constraint} (hk : k ∈ t.constraints) : t.constraint? k.id = some k :=
  find?_key_eq_of_mem ((table_labelledIds_nodup hn hs ht).sublist
    t.constraintIds_sublist_labelledIds) hk

theorem entry_of_mem {k : Constraint} (hk : k ∈ t.constraints) {x : ConstraintColumn}
    (hx : x ∈ k.columns) : k.columns.find? (·.id = x.id) = some x :=
  find?_key_eq_of_mem ((table_labelledIds_nodup hn hs ht).sublist
    (t.partIds_sublist_labelledIds.1 k hk)) hx

theorem mapping_of_mem {r : Relationship} (hr : r ∈ t.relationships) {m : KeyMapping}
    (hm : m ∈ r.columns) : r.columns.find? (·.id = m.id) = some m :=
  find?_key_eq_of_mem ((table_labelledIds_nodup hn hs ht).sublist
    (t.partIds_sublist_labelledIds.2 r hr)) hm

/-- Looking a relationship up by its id finds it with the table that holds it, when each
relationship names the table that holds it. -/
theorem relationship?_of_mem (hholders : ∀ t ∈ s.tables, ∀ r ∈ t.relationships, r.fkTableId = t.id)
    {r : Relationship} (hr : r ∈ t.relationships) : s.relationship? r.id = some (t, r) := by
  have hsome : (s.relationship? r.id).isSome := by
    unfold Schema.relationship?
    exact List.findSome?_isSome_iff.2 ⟨t, ht, by
      simp [Table.relationship?, find?_key_eq_of_mem ((table_labelledIds_nodup hn hs ht).sublist
        (t.ids_sublist_labelledIds.2)) hr]⟩
  obtain ⟨⟨t', r'⟩, hfound⟩ := Option.isSome_iff_exists.1 hsome
  obtain ⟨ht', hr'⟩ := Schema.relationship?_spec hfound
  have hr'm : r' ∈ t'.relationships := List.mem_of_find?_eq_some hr'
  -- relationship ids are distinct across the schema, and each names its holder's id
  have hrr : r' = r := List.inj_on_of_nodup_map (relationshipIds_nodup hn hs)
    (List.mem_flatMap.2 ⟨t', ht', hr'm⟩) (List.mem_flatMap.2 ⟨t, ht, hr⟩)
    (by simpa using List.find?_some hr')
  subst hrr
  have htt : t' = t := List.inj_on_of_nodup_map (tableIds_nodup hn hs) ht' ht
    ((hholders t' ht' r' hr'm).symm.trans (hholders t ht r' hr))
  rw [hfound, htt]

end Database

end SchemaDesign
