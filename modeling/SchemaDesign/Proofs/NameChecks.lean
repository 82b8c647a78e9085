import SchemaDesign.Proofs.Edit.NameScopes

/-!
# Unique names pass the name checks

`Database.validate` refuses a name used twice in its scope with one of six errors, those whose
code ends in `_NAME_NOT_UNIQUE` (`DesignError.repeatsName`). A snapshot whose every scope holds
each name once (`Database.NamesUnique`) is refused with none of them
(`Database.NamesUnique.validate_not_repeatsName`); it may still be refused for another rule.

A run of a check is read through `Except.Good E Q`: it returns a value with `Q` or fails with an
error with `E`. Each name check is a fold that records the names it accepts. Its invariant is
that the names still to come, followed by those recorded, are distinct: the next name is then not
among those recorded, and recording it keeps the invariant (`nodup_record`). Indexes and
constraints are checked across the tables of a schema, so the fold over one table's indexes
carries the names of the indexes of the tables after it.
-/

namespace SchemaDesign

/-- The refusals of a name used twice in its scope: the errors whose code ends in
`_NAME_NOT_UNIQUE`. -/
def DesignError.repeatsName : DesignError → Bool
  | .schemaNameNotUnique .. | .tableNameNotUnique .. | .columnNameNotUnique ..
  | .indexNameNotUnique .. | .constraintNameNotUnique .. | .relationshipNameNotUnique .. => true
  | _ => false

namespace Except

variable {ε α β : Type} {E : ε → Prop}

/-- What a computation that may fail gives: a result with `Q`, or a refusal with `E`. -/
def Good (E : ε → Prop) (Q : α → Prop) : Except ε α → Prop
  | .ok a => Q a
  | .error e => E e

theorem Good.pure {Q : α → Prop} {a : α} (h : Q a) : Good E Q (pure a : Except ε α) := h

theorem Good.throw {Q : α → Prop} {e : ε} (h : E e) : Good E Q (throw e : Except ε α) := h

theorem Good.bind {Q : α → Prop} {R : β → Prop} {x : Except ε α} {f : α → Except ε β}
    (hx : Good E Q x) (hf : ∀ a, Q a → Good E R (f a)) : Good E R (x >>= f) := by
  cases x with
  | error e => exact hx
  | ok a => exact hf a hx

/-- A step that returns nothing of interest, before the rest. -/
theorem Good.seq {R : β → Prop} {x : Except ε α} {f : α → Except ε β}
    (hx : Good E (fun _ => True) x) (hf : ∀ a, Good E R (f a)) : Good E R (x >>= f) :=
  Good.bind hx fun a _ => hf a

theorem Good.error {Q : α → Prop} {x : Except ε α} (h : Good E Q x) {e : ε} (he : x = .error e) :
    E e := by
  subst he
  exact h

/-- A fold whose every step keeps an invariant of the items still to come. -/
theorem good_foldlM {γ : Type} {f : γ → α → Except ε γ} (I : List α → γ → Prop)
    (step : ∀ a l b, I (a :: l) b → Good E (I l) (f b a)) :
    ∀ (l : List α) (b : γ), I l b → Good E (I []) (l.foldlM f b)
  | [], _, hb => hb
  | a :: l, b, hb => by
    rw [List.foldlM_cons]
    exact Good.bind (step a l b hb) fun b' hb' => good_foldlM I step l b' hb'

theorem good_forM {f : α → Except ε PUnit} (hf : ∀ a, Good E (fun _ => True) (f a)) :
    ∀ l : List α, Good E (fun _ => True) (l.forM f)
  | [] => trivial
  | a :: l => Good.bind (hf a) fun _ _ => good_forM hf l

theorem Good.ite_throw {Q : β → Prop} {c : Bool} {e : ε} {f : α → Except ε β} {x : Except ε β}
    (hc : c = false ∨ E e) (hx : Good E Q x) : Good E Q (if c = true then MonadExcept.throw e >>= f else x) := by
  split
  · next hc' =>
    rcases hc with hc | he
    · exact absurd hc' (by simp [hc])
    · exact he
  · exact hx

end Except

/-! ## Name checks -/

/-- The invariant of a name check, for the next name: it is new, and recording it keeps the
invariant. -/
theorem nodup_record {x : String} {rest seen : List String} (h : (x :: rest ++ seen).Nodup) :
    ¬seen.contains x = true ∧ (rest ++ x :: seen).Nodup := by
  refine ⟨fun hx => (List.nodup_cons.1 h).1 ?_, List.nodup_middle.2 h⟩
  exact List.mem_append_right _ (List.contains_iff_mem.1 hx)

theorem nodup_record_or {P : String → Prop} {x : String} {rest seen : List String}
    (h : (x :: rest ++ seen).Nodup ∨ ∀ n, P n) :
    (seen.contains x = false ∨ P x) ∧ ((rest ++ x :: seen).Nodup ∨ ∀ n, P n) := by
  rcases h with h | hP
  · obtain ⟨hnew, hrec⟩ := nodup_record h
    exact ⟨.inl (by simpa using hnew), .inl hrec⟩
  · exact ⟨.inr (hP x), .inr hP⟩

theorem good_ensure {E : DesignError → Prop} {c : Bool} {e : DesignError} (he : E e) :
    Except.Good E (fun _ => True) (ensure c e) := by
  unfold ensure
  split
  · trivial
  · exact he

/-- The schema-wide name checks of the indexes or constraints of one table, before those of the
tables after it: no name is refused. -/
theorem good_nameFold {α : Type} {name : α → String} {e : α → DesignError} (xs : List α) (later : List String) {names : List String}
    (h : (xs.map name ++ later ++ names).Nodup) :
    Except.Good (fun e : DesignError => e.repeatsName = false) (fun r => (later ++ r).Nodup)
      (xs.foldlM (fun (names : List String) x => do
        if names.contains (name x) then throw (e x)
        pure (name x :: names)) names) := by
  refine Except.good_foldlM (fun xs names => (xs.map name ++ later ++ names).Nodup)
    (fun x xs names hx => ?_) xs names h
  obtain ⟨hnew, hrec⟩ := nodup_record hx
  dsimp only
  rw [if_neg hnew]
  exact hrec

/-! ## Checks of a table's parts -/

/-- The refusals of the checks of a table's columns, indexes, constraints and relationships other
than a repeated name: those neither of a repeated name nor of a cycle. -/
def DesignError.isPartRefusal : DesignError → Bool
  | .relationshipCyclicReference .. => false
  | e => !e.repeatsName

theorem DesignError.repeatsName_eq_false_of_isPartRefusal {e : DesignError}
    (h : e.isPartRefusal) : e.repeatsName = false := by
  unfold isPartRefusal at h
  split at h
  · cases h
  · simpa using h

section Parts

/- The checks below hold for any kind of refusal `E` that takes in every refusal of a part, so
that the name checks here and the cycle report read them alike. -/
variable {E : DesignError → Prop} (hE : ∀ e, e.isPartRefusal → E e)
include hE

theorem good_checkDataType_of (vendor : Vendor) (dataType : Option String)
    (ls : Option LengthScale) :
    Except.Good E (fun _ => True) (checkDataType vendor dataType ls) := by
  unfold checkDataType
  repeat' split
  all_goals first
    | exact trivial
    | exact hE _ rfl

theorem Table.good_validateRelationship_of (s : Schema) (t : Table) (r : Relationship) :
    Except.Good E (fun _ => True) (t.validateRelationship s r) := by
  unfold Table.validateRelationship
  refine Except.Good.seq (good_ensure (hE _ rfl)) fun _ => ?_
  split
  · next provider _ =>
    refine Except.Good.seq (good_ensure (hE _ rfl)) fun _ => ?_
    refine Except.Good.seq (Except.good_foldlM (fun _ _ => True) (fun m _ n _ => ?_) _ _ trivial)
      fun _ => ?_
    · refine Except.Good.seq (good_ensure (hE _ rfl)) fun _ => ?_
      split
      · split
        · exact Except.Good.seq (good_ensure (hE _ rfl)) fun _ => Except.Good.pure trivial
        · exact Except.Good.throw (hE _ rfl)
      · exact Except.Good.throw (hE _ rfl)
    split
    · exact Except.good_forM (fun _ => good_ensure (hE _ rfl)) _
    · exact Except.Good.pure trivial
  · exact Except.Good.throw (hE _ rfl)

namespace Table

variable {t : Table}

/-- The columns of an index or a constraint: each in sequence and of the table. -/
theorem good_partColumns_of {α : Type} (seqNo : α → Nat) (columnId : α → Id) (gapScope : String)
    (entity : String) (owner : Id) (cs : List α) :
    Except.Good E (fun _ => True) (cs.foldlM (fun (n : Nat) c => do
      ensure (seqNo c = n + 1) (gap gapScope owner)
      ensure (t.column? (columnId c)).isSome (dangling entity owner "column" (columnId c))
      pure (n + 1)) 0) :=
  Except.good_foldlM (fun _ _ => True) (fun _ _ _ _ =>
    Except.Good.seq (good_ensure (hE _ rfl)) fun _ =>
      Except.Good.seq (good_ensure (hE _ rfl)) fun _ => Except.Good.pure trivial) _ _ trivial

/-- The checks of a table's parts refuse a repeated column name only where the names repeat, or
with `E`. -/
theorem good_validateParts_of (hname : t.columnNames.Nodup ∨ ∀ n, E (.columnNameNotUnique t.name n))
    (vendor : Vendor) :
    Except.Good E (fun _ => True) (t.validateParts vendor) := by
  unfold validateParts
  -- columns: the names still to come, then those recorded, are distinct, or a repeat has `E`
  refine Except.Good.bind (Except.good_foldlM (fun cs acc => (cs.map (·.name) ++ acc.1).Nodup ∨
      ∀ n, E (.columnNameNotUnique t.name n))
    (fun c cs acc hacc => ?_) _ _ (by simpa [columnNames] using hname)) fun _ _ => ?_
  · obtain ⟨hnew, hrec⟩ := nodup_record_or hacc
    dsimp only
    refine Except.Good.ite_throw hnew ?_
    refine Except.Good.seq (good_ensure (hE _ rfl)) fun _ => ?_
    refine Except.Good.seq (good_ensure (hE _ rfl)) fun _ => ?_
    exact Except.Good.seq (good_checkDataType_of hE _ _ _) fun _ => Except.Good.pure hrec
  refine Except.Good.seq (Except.good_foldlM (fun _ _ => True) (fun i _ seen _ => ?_) _ _ trivial)
    fun _ => ?_
  · refine Except.Good.seq (good_ensure (hE _ rfl)) fun _ => ?_
    refine Except.Good.seq (good_partColumns_of hE _ _ _ _ _ _) fun _ => ?_
    split
    · exact Except.Good.throw (hE _ rfl)
    · exact Except.Good.pure trivial
  refine Except.Good.seq (Except.good_foldlM (fun _ _ => True) (fun k _ acc _ => ?_) _ _ trivial)
    fun _ => Except.Good.pure trivial
  refine Except.Good.seq (good_ensure (hE _ rfl)) fun _ => ?_
  refine Except.Good.seq (good_ensure (hE _ rfl)) fun _ => ?_
  refine Except.Good.seq (good_partColumns_of hE _ _ _ _ _ _) fun _ => ?_
  split
  · exact Except.Good.throw (hE _ rfl)
  · exact Except.Good.pure trivial

/-- The checks of a table's relationships refuse a repeated name only where the names repeat, or
with `E`. -/
theorem good_validateRelationships_of
    (hname : t.relationshipNames.Nodup ∨ ∀ n, E (.relationshipNameNotUnique t.name n))
    (s : Schema) :
    Except.Good E (fun _ => True) (t.validateRelationships s) := by
  unfold validateRelationships
  refine Except.Good.bind (Except.good_foldlM (fun rs names => (rs.map (·.name) ++ names).Nodup ∨
      ∀ n, E (.relationshipNameNotUnique t.name n))
    (fun r rs names hnames => ?_) _ _ (by simpa [relationshipNames] using hname))
    fun _ _ => Except.Good.pure trivial
  obtain ⟨hnew, hrec⟩ := nodup_record_or hnames
  dsimp only
  refine Except.Good.ite_throw hnew ?_
  exact Except.Good.seq (good_validateRelationship_of hE s t r) fun _ => Except.Good.pure hrec

end Table

end Parts

namespace Schema

theorem cycleError_not_repeatsName (s : Schema) (members : List String) :
    (s.cycleError members).repeatsName = false := by
  unfold cycleError
  dsimp only
  split <;> rfl

/-- The checks of one schema: table names, and index and constraint names across its tables,
each fold carrying the names of the tables still to come. -/
theorem NamesUnique.good_validate {s : Schema} (h : s.NamesUnique) :
    Except.Good (·.repeatsName = false) (fun _ => True) s.validate := by
  unfold validate
  refine Except.Good.bind (Except.good_foldlM (fun ts acc => (ts.map (·.name) ++ acc.1).Nodup ∧
      (ts.flatMap Table.indexNames ++ acc.2.1).Nodup ∧
      (ts.flatMap Table.constraintNames ++ acc.2.2).Nodup ∧ ∀ t ∈ ts, t.NamesUnique)
    (fun t ts acc hacc => ?_) _ _ ?_) fun _ _ => ?_
  · obtain ⟨tables, indexes, constraints⟩ := acc
    obtain ⟨htables, hindexes, hconstraints, hts⟩ := hacc
    obtain ⟨hnew, htables'⟩ := nodup_record htables
    have ht := hts t List.mem_cons_self
    dsimp only
    rw [if_neg hnew]
    refine Except.Good.bind (good_ensure rfl) fun _ _ => ?_
    refine Except.Good.bind (good_nameFold t.indexes (ts.flatMap Table.indexNames) ?_) fun indexes' hindexes' => ?_
    · simpa [List.flatMap_cons, Table.indexNames] using hindexes
    refine Except.Good.bind (good_nameFold t.constraints (ts.flatMap Table.constraintNames) ?_) fun constraints' hconstraints' => ?_
    · simpa [List.flatMap_cons, Table.constraintNames] using hconstraints
    refine Except.Good.bind (Table.good_validateParts_of (fun _ => DesignError.repeatsName_eq_false_of_isPartRefusal) (.inl ht.columns) _) fun _ _ => ?_
    refine Except.Good.bind (Table.good_validateRelationships_of (fun _ => DesignError.repeatsName_eq_false_of_isPartRefusal) (.inl ht.relationships) _) fun _ _ => ?_
    exact Except.Good.pure ⟨htables', hindexes', hconstraints', fun t' ht' => hts t' (.tail _ ht')⟩
  · simpa [tableNames, indexNames, constraintNames] using
      (⟨h.tables, h.indexes, h.constraints, h.inTables⟩ : _ ∧ _ ∧ _ ∧ _)
  · split
    · exact Except.Good.throw (s.cycleError_not_repeatsName _)
    · exact Except.Good.pure trivial

end Schema

namespace Database

/-- The checks of a snapshot whose every scope holds each name once: schema names, then each
schema's. -/
theorem NamesUnique.good_validate {db : Database} (h : db.NamesUnique) :
    Except.Good (·.repeatsName = false) (fun _ => True) db.validate := by
  unfold validate
  refine Except.Good.seq ?_ fun _ => ?_
  · unfold refuseSome
    split
    · next found _ =>
      obtain ⟨entity, id⟩ := found
      exact Except.Good.throw rfl
    · exact Except.Good.pure trivial
  refine Except.Good.bind (Except.good_foldlM (fun ss names => (ss.map (·.name) ++ names).Nodup ∧
      ∀ s ∈ ss, s.NamesUnique) (fun s ss names hnames => ?_) _ _ ?_)
    fun _ _ => Except.Good.pure trivial
  · obtain ⟨hnodup, hss⟩ := hnames
    obtain ⟨hnew, hrec⟩ := nodup_record hnodup
    dsimp only
    rw [if_neg hnew]
    refine Except.Good.bind (good_ensure rfl) fun _ _ => ?_
    refine Except.Good.bind (hss s List.mem_cons_self).good_validate fun _ _ => ?_
    exact Except.Good.pure ⟨hrec, fun s' hs' => hss s' (.tail _ hs')⟩
  · simpa using (⟨h.schemas, h.inSchemas⟩ : _ ∧ _)

/-- A snapshot whose every scope holds each name once is refused for no repeated name. -/
theorem NamesUnique.validate_not_repeatsName {db : Database} (h : db.NamesUnique)
    {e : DesignError} (he : db.validate = .error e) : e.repeatsName = false :=
  h.good_validate.error he

end Database

end SchemaDesign
