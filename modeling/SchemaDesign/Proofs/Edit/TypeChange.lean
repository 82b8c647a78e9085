import SchemaDesign.Proofs.Edit.Refusals

/-!
# What a change of type reaches, and when it is refused

Changing a column's type copies the new type along the mappings that reference the column, and
on, transitively (`Schema.Mirrored`, from `Retype.lean`). On an accepted snapshot a change that
succeeds retypes exactly those columns: every mirrored column ends with the new type, every other
column is left as it was, and nothing else changes.

Before it changes anything, the operation looks at the mappings of the changed column's own
table: when one of them maps the column onto a column the new type would not suit
(`Schema.BreaksReference`), it refuses with `relationshipColumnTypeIncompatible`. The
refusal is exact: once the column passes the vendor's type check and the auto-increment rule,
the operation refuses so exactly when such a mapping exists. Mirroring itself refuses with
nothing but a missing table or schema.

Main statement: `Editor.apply_changeColumnType_mirrors`.
-/

namespace SchemaDesign

/-- Some mapping of `holder` from the column of `cand` references a column that `cand` would not
suit. -/
def Schema.BreaksReference (s : Schema) (holder : Table) (cand : Column) : Prop :=
  ∃ r ∈ holder.relationships, ∃ m ∈ r.columns, m.fkColumnId = cand.id ∧
    ∃ p pk, s.table? r.pkTableId = some p ∧ p.column? m.pkColumnId = some pk ∧
      typesCompatible cand pk = false

/-- The column `incompatibleReference?` reports is referenced from the candidate's column and
does not suit the candidate. -/
theorem Schema.incompatibleReference?_eq_some {s : Schema} {holder : Table} {cand pk : Column}
    (h : s.incompatibleReference? holder cand = some pk) :
    ∃ r ∈ holder.relationships, ∃ m ∈ r.columns, m.fkColumnId = cand.id ∧
      ∃ p, s.table? r.pkTableId = some p ∧ p.column? m.pkColumnId = some pk ∧
        typesCompatible cand pk = false := by
  unfold incompatibleReference? at h
  have hbad := List.find?_some h
  have hmem := List.mem_of_find?_eq_some h
  simp only [List.mem_flatMap, List.mem_filterMap, List.mem_filter, decide_eq_true_eq] at hmem
  obtain ⟨r, hr, m, ⟨hm, hfk⟩, hpk⟩ := hmem
  obtain ⟨p, hp, hpk⟩ := Option.bind_eq_some_iff.1 hpk
  exact ⟨r, hr, m, hm, hfk, p, hp, hpk, by simpa using hbad⟩

/-- `incompatibleReference?` reports a column exactly when a mapping breaks. -/
theorem Schema.incompatibleReference?_isSome_iff {s : Schema} {holder : Table} {cand : Column} :
    (s.incompatibleReference? holder cand).isSome ↔ s.BreaksReference holder cand := by
  constructor
  · intro h
    obtain ⟨pk, hpk⟩ := Option.isSome_iff_exists.1 h
    obtain ⟨r, hr, m, hm, hfk, p, hp, hpkc, hbad⟩ := incompatibleReference?_eq_some hpk
    exact ⟨r, hr, m, hm, hfk, p, pk, hp, hpkc, hbad⟩
  · rintro ⟨r, hr, m, hm, hfk, p, pk, hp, hpk, hbad⟩
    cases hnone : s.incompatibleReference? holder cand with
    | some _ => rfl
    | none =>
      have := typesCompatible_of_incompatibleReference? hnone hr hm hfk hp hpk
      rw [hbad] at this
      cases this

namespace EditM

/-! ## Mirroring refuses only for a missing table -/

section Mirroring

variable {P : DesignError → Prop} (hS : ∀ x, P (.schemaNotExist x)) (hT : ∀ x, P (.tableNotExist x))
include hS hT

theorem refusesOnly_mirrorLoop (sid : Id) (dt : Option String) (ls : Option LengthScale) :
    ∀ (fuel : Nat) (work visited : List (Id × Id)), RefusesOnly P (mirrorLoop sid dt ls fuel work visited)
  | 0, _, _ => .pure ()
  | _ + 1, [], _ => .pure ()
  | fuel + 1, (provider, key) :: rest, visited => by
    unfold mirrorLoop
    refine (refusesOnly_schema hS sid).bind fun s => ?_
    -- each dependent is retyped, then queued unless visited
    refine (RefusesOnly.foldlM (fun acc dep => ?_) _ _).bind fun acc => ?_
    · exact (refusesOnly_modifyTable hS hT sid dep.1 _).bind fun _ => by
        split
        · exact .pure _
        · exact .pure _
    · exact refusesOnly_mirrorLoop sid dt ls fuel acc.1 acc.2

theorem refusesOnly_mirrorTypeChange (sid tid cid : Id) (dt : Option String)
    (ls : Option LengthScale) : RefusesOnly P (mirrorTypeChange sid tid cid dt ls) := by
  unfold mirrorTypeChange
  exact (refusesOnly_schema hS sid).bind fun _ => refusesOnly_mirrorLoop hS hT sid dt ls _ _ _

end Mirroring

/-! ## The change of type, run forward past its checks -/

section Checked

variable (st : Session) {sid tid cid : Id} {dt : Option String} {ls : Option LengthScale}
  {s : Schema} {t : Table} {c : Column} (hs : st.db.schema? sid = some s)
  (ht : s.table? tid = some t) (hc : t.column? cid = some c)
  (hty : checkDataType s.vendor dt ls = .ok ())
  (hauto : c.isAutoIncrement = true → dt.any s.vendor.isIntegerType = true)
include hs ht hc hty hauto

/-- A change of type that passes the column's own checks comes to the reference check. -/
theorem run_changeColumnType_of_checked :
    (changeColumnType sid tid cid dt ls).run st =
      ((match s.incompatibleReference? t (c.retype dt ls) with
        | some referenced => throw (.relationshipColumnTypeIncompatible c.name referenced.name)
        | none => do
          modifyTable sid tid (Table.updateColumn cid fun c => { c with dataType := dt, lengthScale := ls })
          mirrorTypeChange sid tid cid dt ls : EditM Unit)).run st := by
  have hnot : (c.isAutoIncrement && !(dt.any s.vendor.isIntegerType)) = false := by
    cases hc' : c.isAutoIncrement
    · rfl
    · simp [hauto hc']
  unfold changeColumnType
  rw [run_bind_of_ok (run_schema hs), run_bind_of_ok (run_column hs ht hc),
    run_bind_of_ok (run_check hty st)]
  simp only [hnot, Bool.false_eq_true, if_false]
  rw [run_bind_of_ok (run_schema hs), run_bind_of_ok (run_table hs ht)]
  cases href : s.incompatibleReference? t (c.retype dt ls) with
  | none =>
    unfold Column.retype at href
    rw [href]
  | some referenced =>
    unfold Column.retype at href
    rw [href]
    rfl

/-- Past its own checks, the change is refused for a reference it breaks, and for nothing else. -/
theorem run_changeColumnType_incompatible_iff :
    (∃ a b e, (changeColumnType sid tid cid dt ls).run st =
        .error (.relationshipColumnTypeIncompatible a b) e) ↔
      s.BreaksReference t (c.retype dt ls) := by
  rw [run_changeColumnType_of_checked st hs ht hc hty hauto, ← Schema.incompatibleReference?_isSome_iff]
  cases href : s.incompatibleReference? t (c.retype dt ls) with
  | some referenced => exact iff_of_true ⟨_, _, _, run_throw _ _⟩ rfl
  | none =>
    -- the rest retypes and mirrors, which refuses only for a missing schema or table
    refine iff_of_false ?_ (by simp)
    rintro ⟨a, b, e, hrun⟩
    have hP : RefusesOnly (fun e => ∀ a b, e ≠ .relationshipColumnTypeIncompatible a b)
        (do
          modifyTable sid tid (Table.updateColumn cid fun c => { c with dataType := dt, lengthScale := ls })
          mirrorTypeChange sid tid cid dt ls) :=
      (refusesOnly_modifyTable (fun _ _ _ h => by cases h) (fun _ _ _ h => by cases h) _ _ _).bind
        fun _ => refusesOnly_mirrorTypeChange (fun _ _ _ h => by cases h) (fun _ _ _ h => by cases h)
          _ _ _ _ _
    exact hP _ _ _ hrun a b rfl

end Checked

end EditM

/-! ## On an accepted snapshot -/

/-- A successful change of type retypes exactly the column and those it feeds through mappings;
past the vendor and auto-increment checks, it is refused exactly when a mapping of the column
references a column the new type would not suit. -/
theorem Editor.apply_changeColumnType_mirrors {config : EditorConfig} {supply : IdSupply}
    {db : Database} (hv : db.validate = .ok ()) {sid tid cid : Id} {dt : Option String}
    {ls : Option LengthScale} {s : Schema} (hs : db.schema? sid = some s) :
    (∀ db', (Editor.apply config supply db (.changeColumnType sid tid cid dt ls)).result = .ok db' →
      db.RetypedAt sid dt ls (s.Mirrored (tid, cid)) db' ∧
      ∀ s' ∈ db'.schemas, s'.id = sid → ∀ t' ∈ s'.tables, ∀ c' ∈ t'.columns,
        s.Mirrored (tid, cid) (t'.id, c'.id) → c'.dataType = dt ∧ c'.lengthScale = ls) ∧
    ∀ t c, s.table? tid = some t → t.column? cid = some c →
      checkDataType s.vendor dt ls = .ok () →
      (c.isAutoIncrement = true → dt.any s.vendor.isIntegerType = true) →
      ((∃ a b, (Editor.apply config supply db (.changeColumnType sid tid cid dt ls)).result =
          .error (.relationshipColumnTypeIncompatible a b)) ↔ s.BreaksReference t (c.retype dt ls)) := by
  refine ⟨fun db' happ => ?_, fun t c ht hc hty hauto => ?_⟩
  · unfold Editor.apply at happ
    split at happ
    next st hrun =>
      cases happ
      obtain ⟨hR, htyped, -⟩ := EditM.changeColumnType_spec hs hrun
      refine ⟨hR, fun s' hs' hsid t' ht' c' hc' hmirror => ?_⟩
      have hn : (st.db.labelledIds.map (·.2)).Nodup := by
        rw [hR.labelledIds_eq]
        exact Database.labelledIds_nodup_of_validate hv
      have hfinds := Database.findsTable_of_mem hn hs' ht'
      rw [hsid] at hfinds
      exact htyped _ hmirror t' hfinds c' (Database.column?_of_mem hn hs' ht' hc')
    next => cases happ
  · rw [← EditM.run_changeColumnType_incompatible_iff { db, config, supply } hs ht hc hty hauto]
    constructor
    · rintro ⟨a, b, happ⟩
      unfold Editor.apply at happ
      split at happ
      · cases happ
      next e st' hrun' =>
        cases happ
        exact ⟨a, b, st', hrun'⟩
    · rintro ⟨a, b, e, hrun'⟩
      exact ⟨a, b, Editor.apply_result_of_error hrun'⟩

/-- Tables `p`, keyed by `p1`, `h`, whose column `f` references `p1`, and `g`, whose column `g1`
references `f`: a change of type at `p1` reaches `f` and, through it, `g1`. -/
def retypeChainSchema : Schema :=
  ⟨⟨"s"⟩, ⟨"db"⟩, "s", .mysql, none, none, [
    ⟨⟨"p"⟩, ⟨"s"⟩, "p", none, [⟨⟨"p1"⟩, ⟨"p"⟩, "p1", 1, some "INT", none, false, none, none, none⟩],
      [], [⟨⟨"kp"⟩, ⟨"p"⟩, "pk_p", .primaryKey, none, none, [⟨⟨"kp1"⟩, ⟨"p1"⟩, 1⟩]⟩], []⟩,
    ⟨⟨"h"⟩, ⟨"s"⟩, "h", none, [⟨⟨"f"⟩, ⟨"h"⟩, "f", 1, some "INT", none, false, none, none, none⟩],
      [], [⟨⟨"kh"⟩, ⟨"h"⟩, "pk_h", .primaryKey, none, none, [⟨⟨"kh1"⟩, ⟨"f"⟩, 1⟩]⟩],
      [⟨⟨"r1"⟩, ⟨"h"⟩, ⟨"p"⟩, "r1", .nonIdentifying, .oneToMany, .noAction, .noAction,
        [⟨⟨"m1"⟩, ⟨"f"⟩, ⟨"p1"⟩, 1⟩]⟩]⟩,
    ⟨⟨"g"⟩, ⟨"s"⟩, "g", none, [⟨⟨"g1"⟩, ⟨"g"⟩, "g1", 1, some "INT", none, false, none, none, none⟩],
      [], [],
      [⟨⟨"r2"⟩, ⟨"g"⟩, ⟨"h"⟩, "r2", .nonIdentifying, .oneToMany, .noAction, .noAction,
        [⟨⟨"m2"⟩, ⟨"g1"⟩, ⟨"f"⟩, 1⟩]⟩]⟩]⟩

def retypeChain : Database := ⟨⟨"db"⟩, [retypeChainSchema]⟩

theorem Editor.retypeChain_changeColumnType_mirrors :
    retypeChain.validate = .ok () ∧ retypeChain.schema? ⟨"s"⟩ = some retypeChainSchema ∧
    (∀ db', (Editor.apply {} { seed := 0 } retypeChain
        (.changeColumnType ⟨"s"⟩ ⟨"p"⟩ ⟨"p1"⟩ (some "BIGINT") none)).result = .ok db' →
      retypeChain.RetypedAt ⟨"s"⟩ (some "BIGINT") none
        (retypeChainSchema.Mirrored (⟨"p"⟩, ⟨"p1"⟩)) db' ∧
      ∀ s' ∈ db'.schemas, s'.id = ⟨"s"⟩ → ∀ t' ∈ s'.tables, ∀ c' ∈ t'.columns,
        retypeChainSchema.Mirrored (⟨"p"⟩, ⟨"p1"⟩) (t'.id, c'.id) →
          c'.dataType = some "BIGINT" ∧ c'.lengthScale = none) ∧
    ∀ t c, retypeChainSchema.table? ⟨"p"⟩ = some t → t.column? ⟨"p1"⟩ = some c →
      checkDataType retypeChainSchema.vendor (some "BIGINT") none = .ok () →
      (c.isAutoIncrement = true → (some "BIGINT").any retypeChainSchema.vendor.isIntegerType = true) →
      ((∃ a b, (Editor.apply {} { seed := 0 } retypeChain
          (.changeColumnType ⟨"s"⟩ ⟨"p"⟩ ⟨"p1"⟩ (some "BIGINT") none)).result =
            .error (.relationshipColumnTypeIncompatible a b)) ↔
        retypeChainSchema.BreaksReference t (c.retype (some "BIGINT") none)) := by
  have hv : retypeChain.validate = .ok () := by rfl
  have hs : retypeChain.schema? ⟨"s"⟩ = some retypeChainSchema := by decide
  exact ⟨hv, hs, Editor.apply_changeColumnType_mirrors hv hs⟩

end SchemaDesign
