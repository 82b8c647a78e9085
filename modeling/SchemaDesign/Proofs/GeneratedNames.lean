import SchemaDesign.Proofs.FreshNames
import SchemaDesign.Proofs.Edit.Acyclic

/-!
# Generated names

The editor names three kinds of things itself: a foreign-key column added to a holder without a
name from the caller, `<provider>_<column>`; a primary key given to a table that has none,
`pk_<table>`; and a NOT_NULL constraint, `nn_<table>_<column>`. Each base is built from names
passed through `sanitize`, which gives an identifier-shaped text whatever it is given, and is
made fresh by `uniqueName` under the upper bound of its kind: the column bound for a column, the
constraint bound for a constraint.

Cutting an identifier-shaped text to a positive length, or to any length followed by `_k`, keeps
it identifier-shaped (`isIdentifierShaped_uniqueName`), and `uniqueName` keeps within the bound
when the bound leaves room for a counter (`length_uniqueName_le`). No reserved word holds an
underscore, so a name with one is no reserved word; a foreign-key column name keeps the
underscore after the provider's name whenever the bound exceeds that name.

Main statement `generatedNames_follow_rules`. The lower bound of a kind is never consulted:
`Editor.generated_column_below_min` is a generated column name shorter than the configured
minimum.
-/

namespace SchemaDesign

/-! ## Identifier shape -/

theorem isIdentifierShaped_iff {s : String} :
    isIdentifierShaped s = true ↔
      ∃ c cs, s.toList = c :: cs ∧ (isAsciiLetter c || c == '_') = true ∧
        cs.all isWordChar = true := by
  unfold isIdentifierShaped
  cases s.toList with
  | nil => simp
  | cons c cs => simp

/-- A word character that is no digit may start an identifier. -/
theorem start_of_isWordChar {c : Char} (h : isWordChar c = true) (hd : isAsciiDigit c = false) :
    (isAsciiLetter c || c == '_') = true := by
  unfold isWordChar at h
  simp_all

theorem isWordChar_of_mem_toDigits {c : Char} {n : Nat} (h : c ∈ Nat.toDigits 10 n) :
    isWordChar c = true := by
  have hd : isAsciiDigit c = true := Nat.isDigit_of_mem_toDigits (by decide) (by decide) h
  simp [isWordChar, hd]

theorem isIdentifierShaped_append {a b : String} (ha : isIdentifierShaped a = true)
    (hb : b.toList.all isWordChar = true) : isIdentifierShaped (a ++ b) = true := by
  obtain ⟨c, cs, hl, hc, hcs⟩ := isIdentifierShaped_iff.1 ha
  refine isIdentifierShaped_iff.2 ⟨c, cs ++ b.toList, by simp [String.toList_append, hl], hc, ?_⟩
  simp [hcs, hb]

/-- `sanitize` keeps the word characters and puts `_` for every other; a leading digit, or an
empty text, gets a leading `_`. -/
theorem all_isWordChar_sanitize (s : String) : (sanitize s).toList.all isWordChar = true := by
  have hmap : (s.toList.map fun c => if isWordChar c then c else '_').all isWordChar = true := by
    simp only [List.all_map, List.all_eq_true, Function.comp_apply]
    intro c _
    split
    · assumption
    · decide
  have hunderscore : isWordChar '_' = true := by decide
  unfold sanitize
  dsimp only
  split
  · decide
  · next c cs hcs =>
    rw [hcs] at hmap ⊢
    split <;> simp [hmap, hunderscore]

theorem isIdentifierShaped_sanitize (s : String) : isIdentifierShaped (sanitize s) = true := by
  have hwords := all_isWordChar_sanitize s
  unfold sanitize at hwords ⊢
  dsimp only at hwords ⊢
  split
  · decide
  · next c cs hcs =>
    rw [hcs] at hwords ⊢
    by_cases hd : isAsciiDigit c = true
    · -- a leading digit gets a leading underscore
      simp only [hd, ↓reduceIte, String.toList_ofList, List.all_cons, Bool.and_eq_true] at hwords ⊢
      exact isIdentifierShaped_iff.2 ⟨'_', c :: cs, by simp, by decide, by simpa using hwords.2⟩
    · simp only [hd, Bool.false_eq_true, ↓reduceIte, String.toList_ofList, List.all_cons,
        Bool.and_eq_true] at hwords ⊢
      exact isIdentifierShaped_iff.2 ⟨c, cs, by simp, start_of_isWordChar hwords.1 (by simpa using hd),
        hwords.2⟩

/-! ## Fresh names keep the shape -/

theorem isIdentifierShaped_truncate {s : String} {n : Nat} (h : isIdentifierShaped s = true)
    (hn : 0 < n) : isIdentifierShaped (truncate s n) = true := by
  obtain ⟨c, cs, hl, hc, hcs⟩ := isIdentifierShaped_iff.1 h
  obtain ⟨m, rfl⟩ : ∃ m, n = m + 1 := ⟨n - 1, by omega⟩
  refine isIdentifierShaped_iff.2 ⟨c, cs.take m, by simp [truncate, hl], hc, ?_⟩
  exact List.all_eq_true.2 fun x hx => List.all_eq_true.1 hcs x (List.mem_of_mem_take hx)

/-- A candidate with a counter is identifier-shaped whatever the bound: cut to nothing, it
starts with the `_` of its suffix. -/
theorem isIdentifierShaped_suffixed {base : String} (h : isIdentifierShaped base = true)
    (max k : Nat) : isIdentifierShaped (suffixed base max k) = true := by
  obtain ⟨c, cs, hl, hc, hcs⟩ := isIdentifierShaped_iff.1 h
  have hdigits : (Nat.toDigits 10 k).all isWordChar = true :=
    List.all_eq_true.2 fun _ hx => isWordChar_of_mem_toDigits hx
  rw [isIdentifierShaped_iff, toList_suffixed, hl]
  cases max - (1 + (toString k).length) with
  | zero => exact ⟨'_', _, rfl, by decide, hdigits⟩
  | succ m =>
    refine ⟨c, cs.take m ++ '_' :: Nat.toDigits 10 k, rfl, hc, ?_⟩
    have htake : (cs.take m).all isWordChar = true :=
      List.all_eq_true.2 fun x hx => List.all_eq_true.1 hcs x (List.mem_of_mem_take hx)
    simp [htake, hdigits, isWordChar]

theorem isIdentifierShaped_uniqueName {base : String} (h : isIdentifierShaped base = true)
    {max : Nat} (hmax : 0 < max) (taken : List String) :
    isIdentifierShaped (uniqueName base max taken) = true := by
  by_cases hfirst : truncate base max ∈ taken
  · obtain ⟨k, -, -, -, -, hname⟩ := uniqueName_of_taken base max taken hfirst
    rw [hname]
    exact isIdentifierShaped_suffixed h max k
  · rw [uniqueName_of_free base max taken hfirst]
    exact isIdentifierShaped_truncate h hmax

/-! ## Reserved words -/

theorem underscore_not_mem_reservedWords : ∀ w ∈ reservedWords, '_' ∉ w.toList := by
  decide

/-- Upper-casing keeps an underscore, and no reserved word holds one. -/
theorem isReserved_eq_false_of_underscore {name : String} (h : '_' ∈ name.toList) :
    isReserved name = false := by
  have hup : '_' ∈ (upperAscii name).toList := by
    simp only [upperAscii, String.toList_ofList]
    exact List.mem_map.2 ⟨'_', h, by decide⟩
  unfold isReserved
  cases hmem : reservedWords.contains (upperAscii name) with
  | false => rfl
  | true => exact absurd hup (underscore_not_mem_reservedWords _ (by simpa using hmem))

theorem underscore_mem_uniqueName {base : String} {max : Nat} (taken : List String)
    (h : '_' ∈ (truncate base max).toList) : '_' ∈ (uniqueName base max taken).toList := by
  by_cases hfirst : truncate base max ∈ taken
  · obtain ⟨k, -, -, -, -, hname⟩ := uniqueName_of_taken base max taken hfirst
    rw [hname, toList_suffixed]
    simp
  · rw [uniqueName_of_free base max taken hfirst]
    exact h

theorem underscore_mem_truncate_join {a b : String} {max : Nat} (h : a.length < max) :
    '_' ∈ (truncate (a ++ "_" ++ b) max).toList := by
  have hjoin : (a.toList ++ ['_']).length ≤ max := by
    simp only [List.length_append, String.length_toList, List.length_singleton]
    omega
  simp only [truncate, String.toList_ofList, String.toList_append, show "_".toList = ['_'] from rfl]
  rw [List.take_append, List.take_of_length_le hjoin]
  simp

/-! ## The names the editor makes -/

/-- A fresh name from an identifier-shaped base follows what its bound asks: it is
identifier-shaped when the bound is positive, and keeps within the bound when the bound leaves
room for a counter. -/
theorem uniqueName_follows_bound {base : String} (h : isIdentifierShaped base = true) (max : Nat)
    (taken : List String) :
    (0 < max → isIdentifierShaped (uniqueName base max taken) = true) ∧
    (1 + (Nat.digits 10 (taken.toFinset.card + 2)).length ≤ max →
      (uniqueName base max taken).length ≤ max) :=
  ⟨fun hmax => isIdentifierShaped_uniqueName h hmax taken, length_uniqueName_le base max taken⟩

theorem isIdentifierShaped_join {a : String} (ha : isIdentifierShaped a = true) (b : String) :
    isIdentifierShaped (a ++ "_" ++ sanitize b) = true :=
  isIdentifierShaped_append (isIdentifierShaped_append ha (by decide)) (all_isWordChar_sanitize b)

theorem isIdentifierShaped_prefixed {p : String} (hp : isIdentifierShaped p = true) (name : String) :
    isIdentifierShaped (p ++ sanitize name) = true :=
  isIdentifierShaped_append hp (all_isWordChar_sanitize name)

/-- The names the editor generates, `<provider>_<column>`, `pk_<table>` and
`nn_<table>_<column>`, are identifier-shaped and keep within their bounds as far as the bounds
reach, whatever the names they come from. -/
theorem generatedNames_follow_rules (config : EditorConfig) (provider table column : String)
    (columns constraints : List String) :
    let columnBound := config.naming.column.max
    let constraintBound := config.naming.constraint.max
    let link := uniqueName (sanitize provider ++ "_" ++ sanitize column) columnBound columns
    let key := uniqueName ("pk_" ++ sanitize table) constraintBound constraints
    let notNull :=
      uniqueName ("nn_" ++ sanitize table ++ "_" ++ sanitize column) constraintBound constraints
    (0 < columnBound → isIdentifierShaped link = true) ∧
    (1 + (Nat.digits 10 (columns.toFinset.card + 2)).length ≤ columnBound →
      link.length ≤ columnBound) ∧
    ((sanitize provider).length < columnBound → isReserved link = false) ∧
    (0 < constraintBound → isIdentifierShaped key = true ∧ isIdentifierShaped notNull = true) ∧
    (1 + (Nat.digits 10 (constraints.toFinset.card + 2)).length ≤ constraintBound →
      key.length ≤ constraintBound ∧ notNull.length ≤ constraintBound) := by
  intro columnBound constraintBound link key notNull
  obtain ⟨hlinkShape, hlinkLength⟩ := uniqueName_follows_bound
    (isIdentifierShaped_join (isIdentifierShaped_sanitize provider) column) columnBound columns
  obtain ⟨hkeyShape, hkeyLength⟩ := uniqueName_follows_bound
    (isIdentifierShaped_prefixed (p := "pk_") (by decide) table) constraintBound constraints
  obtain ⟨hnnShape, hnnLength⟩ := uniqueName_follows_bound
    (isIdentifierShaped_join (isIdentifierShaped_prefixed (p := "nn_") (by decide) table) column)
    constraintBound constraints
  refine ⟨hlinkShape, hlinkLength, fun hlong => ?_, fun h => ⟨hkeyShape h, hnnShape h⟩,
    fun h => ⟨hkeyLength h, hnnLength h⟩⟩
  -- the bound keeps the underscore that joins the provider to the column
  exact isReserved_eq_false_of_underscore
    (underscore_mem_uniqueName columns (underscore_mem_truncate_join hlong))

/-- `lines` refers to `orders` by its column `id` under the default bounds: the column the
editor names is no reserved word. -/
theorem generatedNames_orders_id :
    (sanitize "orders").length < ({} : EditorConfig).naming.column.max ∧
      isReserved (uniqueName (sanitize "orders" ++ "_" ++ sanitize "id")
        ({} : EditorConfig).naming.column.max ["qty"]) = false :=
  ⟨by decide, (generatedNames_follow_rules {} "orders" "lines" "id" ["qty"] []).2.2.1 (by decide)⟩

/-- Column names of ten to 64 characters. -/
def tenCharColumns : EditorConfig := { naming := { column := ⟨10, 64⟩ } }

/-- `lines` refers to `orders` through a new column `l2`, whose name is left to the editor. -/
def linesReferOrders : Operation :=
  .createRelationship ⟨"s"⟩ ⟨⟨"r"⟩, ⟨"lines"⟩, ⟨"orders"⟩, "fk_lines_orders", .nonIdentifying,
    .oneToMany, .noAction, .noAction, [⟨⟨"m1"⟩, ⟨"o1"⟩, ⟨"l2"⟩, none⟩]⟩

set_option maxRecDepth 100000 in
/-- The editor names the new column of `lines` `orders_id`, nine characters, under a configured
minimum of ten, and the column check refuses that name. -/
theorem Editor.generated_column_below_min :
    ((Editor.apply tenCharColumns { seed := 0 } ordersAndLines linesReferOrders).result.map
        fun db => (((db.schema? ⟨"s"⟩).bind (·.table? ⟨"lines"⟩)).bind (·.column? ⟨"l2"⟩)).map
          (·.name)) = .ok (some "orders_id") ∧
      checkIdentifier "orders_id" tenCharColumns.naming.column = .error (.length 10 64) :=
  ⟨by rfl, by decide⟩

end SchemaDesign
