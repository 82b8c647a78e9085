import Mathlib.Order.Defs.Unbundled
import Mathlib.Data.List.Forall2
import SchemaDesign.Edit.Session

/-!
# Steps that keep a relation between snapshots

An edit step runs on a session and either continues with a new session or refuses. Facts about
operations mostly compare the snapshot a step starts from with the one it ends with, so they are
stated as `EditM.Keeps R x`: every successful run of `x` relates the two snapshots by `R`.

When `R` is a preorder, keeping it composes: a `bind` of steps that keep it keeps it, and so do
folds over lists. Steps that only read the session, mint ids or report events leave the snapshot
as it is (`Keeps Eq`), so they keep every preorder. `modifyTable` keeps a relation that compares
snapshots table by table as soon as the change it makes to the table does.
-/

namespace SchemaDesign

/-- Snapshots whose schemas correspond one to one, in order and by id, with corresponding tables
related by `T`. -/
def Database.Tablewise (T : Table → Table → Prop) (db db' : Database) : Prop :=
  db'.id = db.id ∧
    List.Forall₂ (fun s s' => s'.id = s.id ∧ List.Forall₂ T s.tables s'.tables) db.schemas db'.schemas

/-- The snapshot with the first table `tid` of the first schema `sid` changed by `f`. -/
def Database.updateTable (sid tid : Id) (f : Table → Table) (db : Database) : Database :=
  let change (s : Schema) : Schema := { s with tables := updateFirst (·.id = tid) f s.tables }
  { db with schemas := updateFirst (·.id = sid) change db.schemas }

theorem forall₂_trans {α : Type} {r : α → α → Prop} (hr : ∀ a b c, r a b → r b c → r a c) :
    ∀ {xs ys zs : List α}, List.Forall₂ r xs ys → List.Forall₂ r ys zs → List.Forall₂ r xs zs
  | _, _, _, .nil, .nil => .nil
  | _, _, _, .cons h₁ t₁, .cons h₂ t₂ => .cons (hr _ _ _ h₁ h₂) (forall₂_trans hr t₁ t₂)

/-- `updateFirst` changes at most one item, the first that satisfies `p`, and changes it by
`f`. -/
theorem forall₂_updateFirst {α : Type} {r : α → α → Prop} (hr : ∀ a, r a a) (p : α → Bool)
    (f : α → α) : ∀ xs : List α, (∀ x, xs.find? p = some x → r x (f x)) →
      List.Forall₂ r xs (updateFirst p f xs)
  | [], _ => .nil
  | x :: xs, hf => by
    unfold updateFirst
    split
    · exact .cons (hf x (by simp [*])) (List.forall₂_same.2 fun a _ => hr a)
    · exact .cons (hr x) (forall₂_updateFirst hr p f xs fun y hy => hf y (by simp [*]))

/-- Looking up what `updateFirst` changed finds the change, as long as it still matches. -/
theorem find?_updateFirst {α : Type} {p : α → Bool} {f : α → α} (hf : ∀ x, p x → p (f x)) :
    ∀ xs : List α, (updateFirst p f xs).find? p = (xs.find? p).map f
  | [] => rfl
  | x :: xs => by
    unfold updateFirst
    by_cases hx : p x
    · simp [hx, hf x hx]
    · simp [hx, find?_updateFirst hf xs]

/-- An item after `updateFirst` was there before, or is the image of the first match. -/
theorem mem_updateFirst {α : Type} {p : α → Bool} {f : α → α} :
    ∀ {xs : List α} {y : α}, y ∈ updateFirst p f xs → y ∈ xs ∨ ∃ x, xs.find? p = some x ∧ y = f x
  | [], _, h => by simp [updateFirst] at h
  | x :: xs, y, h => by
    unfold updateFirst at h
    split at h
    next hx =>
      rcases List.mem_cons.1 h with rfl | h
      · exact .inr ⟨x, by simp [hx], rfl⟩
      · exact .inl (List.mem_cons_of_mem _ h)
    next hx =>
      rcases List.mem_cons.1 h with rfl | h
      · exact .inl List.mem_cons_self
      · rcases mem_updateFirst h with h | ⟨x', hx', rfl⟩
        · exact .inl (List.mem_cons_of_mem _ h)
        · exact .inr ⟨x', by simp [hx, hx'], rfl⟩

theorem forall₂_exists_of_mem_right {α β : Type} {r : α → β → Prop} {xs : List α}
    {ys : List β} (h : List.Forall₂ r xs ys) {y : β} (hy : y ∈ ys) : ∃ x ∈ xs, r x y := by
  induction h with
  | nil => simp at hy
  | cons hxy _ ih =>
    rcases List.mem_cons.1 hy with rfl | hy
    · exact ⟨_, List.mem_cons_self, hxy⟩
    · obtain ⟨x, hx, h⟩ := ih hy
      exact ⟨x, List.mem_cons_of_mem _ hx, h⟩

/-- Related lists whose related items match alike: a lookup in the second finds an item related
to what the same lookup finds in the first. -/
theorem forall₂_find? {α β : Type} {r : α → β → Prop} {p : α → Bool} {q : β → Bool}
    (hpq : ∀ a b, r a b → q b = p a) :
    ∀ {xs : List α} {ys : List β}, List.Forall₂ r xs ys → ∀ {y : β}, ys.find? q = some y →
      ∃ x, xs.find? p = some x ∧ r x y
  | _, _, .nil, _, h => by simp at h
  | a :: _, b :: _, .cons hab hrest, y, h => by
    rw [List.find?_cons, hpq a b hab] at h
    rw [List.find?_cons]
    cases hpa : p a
    · rw [hpa] at h
      exact forall₂_find? hpq hrest h
    · rw [hpa] at h
      cases h
      exact ⟨a, rfl, hab⟩

theorem forall₂_map_eq {α β γ : Type} {r : α → β → Prop} {f : α → γ} {g : β → γ}
    {xs : List α} {ys : List β} (h : List.Forall₂ r xs ys) (hfg : ∀ a b, r a b → g b = f a) :
    ys.map g = xs.map f := by
  induction h with
  | nil => rfl
  | cons hxy _ ih => simp [hfg _ _ hxy, ih]

namespace Database.Tablewise

variable {T : Table → Table → Prop}

theorem refl [Std.Refl T] (db : Database) : Database.Tablewise T db db :=
  ⟨rfl, List.forall₂_same.2 fun s _ => ⟨rfl, List.forall₂_refl s.tables⟩⟩

theorem trans [IsTrans Table T] {db₁ db₂ db₃ : Database} (h₁ : Database.Tablewise T db₁ db₂)
    (h₂ : Database.Tablewise T db₂ db₃) : Database.Tablewise T db₁ db₃ :=
  ⟨h₂.1.trans h₁.1, forall₂_trans (fun _ _ _ a b => ⟨b.1.trans a.1,
    forall₂_trans (fun _ _ _ => IsTrans.trans _ _ _) a.2 b.2⟩) h₁.2 h₂.2⟩

instance [IsPreorder Table T] : IsPreorder Database (Database.Tablewise T) where
  refl := refl
  trans _ _ _ := trans

theorem mono {T' : Table → Table → Prop} (hT : ∀ t t', T t t' → T' t t') {db db' : Database}
    (h : Database.Tablewise T db db') : Database.Tablewise T' db db' :=
  ⟨h.1, h.2.imp fun _ _ hs => ⟨hs.1, hs.2.imp fun _ _ => hT _ _⟩⟩

end Database.Tablewise

/-- The snapshot holds `t` as table `tid` of schema `sid`. -/
def Database.FindsTable (sid tid : Id) (t : Table) (db : Database) : Prop :=
  ∃ s, db.schema? sid = some s ∧ s.table? tid = some t

namespace Database

theorem FindsTable.unique {db : Database} {sid tid : Id} {t₁ t₂ : Table}
    (h₁ : db.FindsTable sid tid t₁) (h₂ : db.FindsTable sid tid t₂) : t₁ = t₂ := by
  obtain ⟨s₁, hs₁, ht₁⟩ := h₁
  obtain ⟨s₂, hs₂, ht₂⟩ := h₂
  rw [hs₁, Option.some.injEq] at hs₂
  subst hs₂
  rw [ht₁, Option.some.injEq] at ht₂
  exact ht₂

theorem FindsTable.id_eq {db : Database} {sid tid : Id} {t : Table} (h : db.FindsTable sid tid t) :
    t.id = tid := by
  obtain ⟨s, -, ht⟩ := h
  simpa using List.find?_some ht

/-- After changing table `tid` of schema `sid` by a change that keeps its id, the lookup finds the
changed table. -/
theorem findsTable_updateTable {db : Database} {sid tid : Id} {f : Table → Table}
    (hf : ∀ t, t.id = tid → (f t).id = tid) {t' : Table} :
    (db.updateTable sid tid f).FindsTable sid tid t' ↔ ∃ t, db.FindsTable sid tid t ∧ t' = f t := by
  simp only [FindsTable, updateTable, schema?, Schema.table?]
  rw [find?_updateFirst (by simp)]
  constructor
  · rintro ⟨s', hs', ht'⟩
    obtain ⟨s, hs, rfl⟩ := Option.map_eq_some_iff.1 hs'
    rw [find?_updateFirst (by simpa using hf)] at ht'
    obtain ⟨t, ht, rfl⟩ := Option.map_eq_some_iff.1 ht'
    exact ⟨t, ⟨s, hs, ht⟩, rfl⟩
  · rintro ⟨t, ⟨s, hs, ht⟩, rfl⟩
    refine ⟨_, by rw [hs]; rfl, ?_⟩
    rw [find?_updateFirst (by simpa using hf), ht]
    rfl

/-- Snapshots related table by table, by a relation that keeps table ids, find related tables. -/
theorem Tablewise.findsTable {T : Table → Table → Prop} (hT : ∀ t t', T t t' → t'.id = t.id)
    {db db' : Database} (h : db.Tablewise T db') {sid tid : Id} {t' : Table}
    (hf : db'.FindsTable sid tid t') : ∃ t, db.FindsTable sid tid t ∧ T t t' := by
  obtain ⟨s', hs', ht'⟩ := hf
  -- related schemas and related tables have equal ids, so the lookups match alike
  have hsid : ∀ s s' : Schema, s'.id = s.id ∧ List.Forall₂ T s.tables s'.tables →
      decide (s'.id = sid) = decide (s.id = sid) := fun _ _ hs => by rw [hs.1]
  have htid : ∀ t t' : Table, T t t' → decide (t'.id = tid) = decide (t.id = tid) :=
    fun _ _ ht => by rw [hT _ _ ht]
  obtain ⟨s, hs, -, htables⟩ := forall₂_find? hsid h.2 hs'
  obtain ⟨t, ht, htt⟩ := forall₂_find? htid htables ht'
  exact ⟨t, ⟨s, hs, ht⟩, htt⟩

/-- The same, the other way: each table the first snapshot finds has a related one in the
second. -/
theorem Tablewise.findsTable_left {T : Table → Table → Prop} (hT : ∀ t t', T t t' → t'.id = t.id)
    {db db' : Database} (h : db.Tablewise T db') {sid tid : Id} {t : Table}
    (hf : db.FindsTable sid tid t) : ∃ t', db'.FindsTable sid tid t' ∧ T t t' := by
  obtain ⟨s, hs, ht⟩ := hf
  have hsid : ∀ s' s : Schema, s'.id = s.id ∧ List.Forall₂ T s.tables s'.tables →
      decide (s.id = sid) = decide (s'.id = sid) := fun _ _ hs => by rw [hs.1]
  have htid : ∀ t' t : Table, T t t' → decide (t.id = tid) = decide (t'.id = tid) :=
    fun _ _ ht => by rw [hT _ _ ht]
  obtain ⟨s', hs', -, htables⟩ := forall₂_find? hsid h.2.flip hs
  obtain ⟨t', ht', htt⟩ := forall₂_find? htid htables.flip ht
  exact ⟨t', ⟨s', hs', ht'⟩, htt⟩

end Database

namespace EditM

/-- Every successful run of `x` relates the snapshot it starts from to the one it ends with. -/
def Keeps {α : Type} (R : Database → Database → Prop) (x : EditM α) : Prop :=
  ∀ st a st', x.run st = .ok a st' → R st.db st'.db

/-- A successful run of a `bind` is a successful run of its first step followed by one of the
continuation. -/
theorem run_bind_ok {α β : Type} {x : EditM α} {f : α → EditM β} {st st'' : Session} {b : β}
    (h : (x >>= f).run st = .ok b st'') :
    ∃ a st', x.run st = .ok a st' ∧ (f a).run st' = .ok b st'' := by
  simp only [EStateM.run, bind, EStateM.bind] at h
  split at h
  · rename_i a st' hx
    exact ⟨a, st', hx, h⟩
  · cases h

theorem pure_run {α : Type} {a b : α} {st st' : Session} (h : (pure a : EditM α).run st = .ok b st') :
    a = b ∧ st = st' := by
  have hrun : (pure a : EditM α).run st = .ok a st := rfl
  rwa [hrun, EStateM.Result.ok.injEq] at h

theorem throw_run {α : Type} {e : DesignError} {b : α} {st st' : Session}
    (h : (throw e : EditM α).run st = .ok b st') : False := by
  cases h

/-- A fold whose every step relates accumulators and snapshots by `Φ`, a relation that composes,
and leaves `P` of the item it took, which later steps keep: the whole fold relates its ends by
`Φ` and leaves `P` of every item. -/
theorem foldlM_run {α β : Type} {f : β → α → EditM β} (Φ : β → β → Database → Database → Prop)
    (P : α → β → Database → Prop) (hrefl : ∀ b db, Φ b b db db)
    (htrans : ∀ b₁ b₂ b₃ db₁ db₂ db₃, Φ b₁ b₂ db₁ db₂ → Φ b₂ b₃ db₂ db₃ → Φ b₁ b₃ db₁ db₃)
    (hkeep : ∀ a b₁ b₂ db₁ db₂, P a b₁ db₁ → Φ b₁ b₂ db₁ db₂ → P a b₂ db₂)
    (hf : ∀ b a st b' st', (f b a).run st = .ok b' st' → Φ b b' st.db st'.db ∧ P a b' st'.db) :
    ∀ (xs : List α) (b : β) (st : Session) (b' : β) (st' : Session),
      (xs.foldlM f b).run st = .ok b' st' → Φ b b' st.db st'.db ∧ ∀ a ∈ xs, P a b' st'.db
  | [], b, st, b', st', h => by
    obtain ⟨rfl, rfl⟩ := pure_run h
    exact ⟨hrefl _ _, fun _ ha => absurd ha List.not_mem_nil⟩
  | a :: xs, b, st, b'', st'', h => by
    rw [List.foldlM_cons] at h
    obtain ⟨b', st', h₁, h₂⟩ := run_bind_ok h
    obtain ⟨hΦ₁, hP₁⟩ := hf b a st b' st' h₁
    obtain ⟨hΦ₂, hP₂⟩ := foldlM_run Φ P hrefl htrans hkeep hf xs b' st' b'' st'' h₂
    refine ⟨htrans _ _ _ _ _ _ hΦ₁ hΦ₂, fun x hx => ?_⟩
    rcases List.mem_cons.1 hx with rfl | hx
    · exact hkeep x _ _ _ _ hP₁ hΦ₂
    · exact hP₂ x hx

theorem Keeps.mono {α : Type} {R S : Database → Database → Prop} {x : EditM α} (h : Keeps R x)
    (hRS : ∀ a b, R a b → S a b) : Keeps S x :=
  fun st a st' hr => hRS _ _ (h st a st' hr)

theorem Keeps.throw {α : Type} {R : Database → Database → Prop} (e : DesignError) :
    Keeps R (throw e : EditM α) := by
  intro st a st' h
  cases h

theorem Keeps.throw_bind {α β : Type} {R : Database → Database → Prop} (e : DesignError)
    (f : α → EditM β) : Keeps R (MonadExcept.throw e >>= f) := by
  intro st b st'' h
  obtain ⟨a, st', h₁, -⟩ := run_bind_ok h
  cases h₁

/-- A branch on a condition relates the snapshots when each arm does, knowing the condition. -/
theorem Keeps.ite {α : Type} {R : Database → Database → Prop} {c : Prop} [Decidable c]
    {x y : EditM α} (hx : c → Keeps R x) (hy : ¬c → Keeps R y) : Keeps R (if c then x else y) := by
  split
  · next h => exact hx h
  · next h => exact hy h

/-- Every successful run of `x` returns a value satisfying `Q`. -/
def Returns {α : Type} (Q : α → Prop) (x : EditM α) : Prop :=
  ∀ st a st', x.run st = .ok a st' → Q a

theorem Returns.pure {α : Type} {Q : α → Prop} {a : α} (h : Q a) : Returns Q (pure a : EditM α) := by
  intro st b st' hr
  cases hr
  exact h

theorem Returns.throw {α : Type} {Q : α → Prop} (e : DesignError) :
    Returns Q (MonadExcept.throw e : EditM α) := by
  intro st a st' h
  cases h

theorem Returns.bind {α β : Type} {Q₁ : β → Prop} {Q : α → Prop} {x : EditM β}
    {f : β → EditM α} (hx : Returns Q₁ x) (hf : ∀ b, Q₁ b → Returns Q (f b)) :
    Returns Q (x >>= f) := by
  intro st a st'' h
  obtain ⟨b, st', h₁, h₂⟩ := run_bind_ok h
  exact hf b (hx _ _ _ h₁) _ _ _ h₂

theorem Returns.bind_right {α β : Type} {Q : α → Prop} {x : EditM β} {f : β → EditM α}
    (hf : ∀ b, Returns Q (f b)) : Returns Q (x >>= f) :=
  Returns.bind (fun _ _ _ _ => trivial : Returns (fun _ => True) x) fun b _ => hf b

/-- Every successful run of `x` ends in a snapshot satisfying `P`. -/
def Ensures {α : Type} (P : Database → Prop) (x : EditM α) : Prop :=
  ∀ st a st', x.run st = .ok a st' → P st'.db

theorem Ensures.throw {α : Type} {P : Database → Prop} (e : DesignError) :
    Ensures P (MonadExcept.throw e : EditM α) := by
  intro st a st' h
  cases h

theorem Ensures.bind_right {α β : Type} {P : Database → Prop} {x : EditM β} {f : β → EditM α}
    (hf : ∀ b, Ensures P (f b)) : Ensures P (x >>= f) := by
  intro st a st'' h
  obtain ⟨b, st', -, h₂⟩ := run_bind_ok h
  exact hf b _ _ _ h₂

theorem Ensures.bind_left {α β : Type} {P : Database → Prop} {x : EditM β} {f : β → EditM α}
    (hx : Ensures P x) (hf : ∀ b, Keeps Eq (f b)) : Ensures P (x >>= f) := by
  intro st a st'' h
  obtain ⟨b, st', h₁, h₂⟩ := run_bind_ok h
  rw [← hf b _ _ _ h₂]
  exact hx _ _ _ h₁

/-- Every successful run of `x` from a snapshot satisfying `P` relates the snapshots. Steps that
change a table they read before are related this way, from a snapshot holding what they read. -/
def KeepsFrom {α : Type} (P : Database → Prop) (R : Database → Database → Prop) (x : EditM α) :
    Prop :=
  ∀ st a st', P st.db → x.run st = .ok a st' → R st.db st'.db

theorem Keeps.keepsFrom {α : Type} {P : Database → Prop} {R : Database → Database → Prop}
    {x : EditM α} (h : Keeps R x) : KeepsFrom P R x :=
  fun st a st' _ hr => h st a st' hr

theorem KeepsFrom.bind_eq {α β : Type} {P : Database → Prop} {R : Database → Database → Prop}
    {x : EditM α} {f : α → EditM β} (hx : Keeps Eq x) (hf : ∀ a, KeepsFrom P R (f a)) :
    KeepsFrom P R (x >>= f) := by
  intro st b st'' hp h
  obtain ⟨a, st', h₁, h₂⟩ := run_bind_ok h
  have hdb : st.db = st'.db := hx st a st' h₁
  rw [hdb] at hp ⊢
  exact hf a st' b st'' hp h₂

theorem KeepsFrom.ite {α : Type} {P : Database → Prop} {R : Database → Database → Prop} {c : Prop}
    [Decidable c] {x y : EditM α} (hx : c → KeepsFrom P R x) (hy : ¬c → KeepsFrom P R y) :
    KeepsFrom P R (if c then x else y) := by
  split
  · next h => exact hx h
  · next h => exact hy h

/-- `x` changes no snapshot, and a run of it that returns `a` starts from a snapshot where
`Q a` holds: what a lookup or a check tells the steps after it. -/
def Reads {α : Type} (Q : α → Database → Prop) (x : EditM α) : Prop :=
  ∀ st a st', x.run st = .ok a st' → st'.db = st.db ∧ Q a st.db

theorem Reads.keeps {α : Type} {Q : α → Database → Prop} {x : EditM α} (h : Reads Q x) :
    Keeps Eq x :=
  fun st a st' hr => (h st a st' hr).1.symm

theorem KeepsFrom.bind_reads {α β : Type} {P : Database → Prop} {R : Database → Database → Prop}
    {Q : α → Database → Prop} {x : EditM α} {f : α → EditM β} (hx : Reads Q x)
    (hf : ∀ a, KeepsFrom (fun db => P db ∧ Q a db) R (f a)) : KeepsFrom P R (x >>= f) := by
  intro st b st'' hp h
  obtain ⟨a, st', h₁, h₂⟩ := run_bind_ok h
  obtain ⟨hdb, hq⟩ := hx st a st' h₁
  have hrest := hf a st' b st'' ⟨hdb ▸ hp, hdb ▸ hq⟩ h₂
  rwa [hdb] at hrest

theorem Keeps.bind_reads {α β : Type} {R : Database → Database → Prop}
    {Q : α → Database → Prop} {x : EditM α} {f : α → EditM β} (hx : Reads Q x)
    (hf : ∀ a, KeepsFrom (Q a) R (f a)) : Keeps R (x >>= f) := by
  intro st b st'' h
  obtain ⟨a, st', h₁, h₂⟩ := run_bind_ok h
  obtain ⟨hdb, hq⟩ := hx st a st' h₁
  have hrest := hf a st' b st'' (hdb ▸ hq) h₂
  rwa [hdb] at hrest

theorem KeepsFrom.keeps {α : Type} {R : Database → Database → Prop} {x : EditM α}
    (h : KeepsFrom (fun _ => True) R x) : Keeps R x :=
  fun st a st' hr => h st a st' trivial hr

theorem KeepsFrom.mono_left {α : Type} {P P' : Database → Prop} {R : Database → Database → Prop}
    {x : EditM α} (h : KeepsFrom P' R x) (hP : ∀ db, P db → P' db) : KeepsFrom P R x :=
  fun st a st' hp hr => h st a st' (hP _ hp) hr

/-! A check made of reads tells what the reads tell, chained through its binds. -/

theorem Reads.pure {α : Type} {Q : α → Database → Prop} {a : α} (h : ∀ db, Q a db) :
    Reads Q (pure a : EditM α) := by
  intro st b st' hr
  cases hr
  exact ⟨rfl, h _⟩

theorem Reads.throw {α : Type} {Q : α → Database → Prop} (e : DesignError) :
    Reads Q (throw e : EditM α) := by
  intro st a st' h
  cases h

theorem Reads.throw_bind {α β : Type} {Q : β → Database → Prop} (e : DesignError)
    (f : α → EditM β) : Reads Q (MonadExcept.throw e >>= f) := by
  intro st b st'' h
  obtain ⟨a, st', h₁, -⟩ := run_bind_ok h
  cases h₁

theorem Reads.bind {α β : Type} {Q₁ : α → Database → Prop} {Q : β → Database → Prop}
    {x : EditM α} {f : α → EditM β} (hx : Reads Q₁ x)
    (hf : ∀ a, Reads (fun b db => Q₁ a db → Q b db) (f a)) : Reads Q (x >>= f) := by
  intro st b st'' h
  obtain ⟨a, st', h₁, h₂⟩ := run_bind_ok h
  obtain ⟨hdb₁, hq₁⟩ := hx st a st' h₁
  obtain ⟨hdb₂, hq⟩ := hf a st' b st'' h₂
  rw [hdb₁] at hdb₂ hq
  exact ⟨hdb₂, hq hq₁⟩

theorem Reads.bind_keeps {α β : Type} {Q : β → Database → Prop} {x : EditM α}
    {f : α → EditM β} (hx : Keeps Eq x) (hf : ∀ a, Reads Q (f a)) : Reads Q (x >>= f) := by
  intro st b st'' h
  obtain ⟨a, st', h₁, h₂⟩ := run_bind_ok h
  have hdb : st.db = st'.db := hx st a st' h₁
  obtain ⟨hdb₂, hq⟩ := hf a st' b st'' h₂
  rw [← hdb] at hdb₂ hq
  exact ⟨hdb₂, hq⟩

section Preorder

variable {R : Database → Database → Prop} [IsPreorder Database R]

theorem Keeps.of_eq {α : Type} {x : EditM α} (h : Keeps Eq x) : Keeps R x :=
  h.mono fun a _ e => e ▸ Std.Refl.refl a

theorem Keeps.pure {α : Type} (a : α) : Keeps R (pure a : EditM α) := by
  intro st b st' h
  cases h
  exact Std.Refl.refl _

theorem Keeps.bind {α β : Type} {x : EditM α} {f : α → EditM β} (hx : Keeps R x)
    (hf : ∀ a, Keeps R (f a)) : Keeps R (x >>= f) := by
  intro st b st'' h
  obtain ⟨a, st', h₁, h₂⟩ := run_bind_ok h
  exact IsTrans.trans _ _ _ (hx st a st' h₁) (hf a st' b st'' h₂)

theorem Keeps.foldlM {α β : Type} {f : β → α → EditM β} (hf : ∀ b a, Keeps R (f b a)) :
    ∀ (xs : List α) (init : β), Keeps R (xs.foldlM f init)
  | [], init => Keeps.pure init
  | x :: xs, init => by
    rw [List.foldlM_cons]
    exact Keeps.bind (hf init x) fun b => Keeps.foldlM hf xs b

theorem Keeps.map {α β : Type} {x : EditM α} (f : α → β) (hx : Keeps R x) :
    Keeps R (f <$> x) := by
  rw [← bind_pure_comp]
  exact Keeps.bind hx fun _ => Keeps.pure _

theorem Keeps.forM {α : Type} {f : α → EditM Unit} (hf : ∀ a, Keeps R (f a)) :
    ∀ xs : List α, Keeps R (xs.forM f)
  | [] => Keeps.pure ()
  | x :: xs => by
    rw [List.forM_eq_forM, List.forM_cons]
    exact Keeps.bind (hf x) fun _ => Keeps.forM hf xs

theorem KeepsFrom.bind {α β : Type} {P : Database → Prop} {x : EditM α} {f : α → EditM β}
    (hx : KeepsFrom P R x) (hf : ∀ a, Keeps R (f a)) : KeepsFrom P R (x >>= f) := by
  intro st b st'' hp h
  obtain ⟨a, st', h₁, h₂⟩ := run_bind_ok h
  exact IsTrans.trans _ _ _ (hx st a st' hp h₁) (hf a st' b st'' h₂)

end Preorder

/-! ## The session's primitives -/

theorem database_run {st st' : Session} {db : Database} (h : database.run st = .ok db st') :
    st' = st ∧ db = st.db := by
  have hrun : database.run st = .ok st.db st := rfl
  rw [hrun] at h
  cases h
  exact ⟨rfl, rfl⟩

theorem config_run {st st' : Session} {c : EditorConfig} (h : config.run st = .ok c st') :
    st' = st ∧ c = st.config := by
  have hrun : config.run st = .ok st.config st := rfl
  rw [hrun] at h
  cases h
  exact ⟨rfl, rfl⟩

theorem mint_run {st st' : Session} {i : Id} (h : mint.run st = .ok i st') : st'.db = st.db := by
  unfold mint at h
  obtain ⟨st₀, st₁, h₁, h₂⟩ := run_bind_ok h
  have hget : (get : EditM Session).run st = .ok st st := rfl
  rw [hget, EStateM.Result.ok.injEq] at h₁
  obtain ⟨rfl, rfl⟩ := h₁
  dsimp only at h₂
  cases hm : st.supply.mintUnused st.db.mentionedIds (st.db.mentionedIds.length + 1) with
  | none =>
    rw [hm] at h₂
    cases h₂
  | some found =>
    obtain ⟨i', supply⟩ := found
    rw [hm] at h₂
    cases h₂
    rfl

theorem emit_run {st st' : Session} {e : Event} {u : Unit} (h : (emit e).run st = .ok u st') :
    st'.db = st.db := by
  have hrun : (emit e).run st = .ok () { st with events := st.events ++ [e] } := rfl
  rw [hrun] at h
  cases h
  rfl

theorem schema_run {sid : Id} {st st' : Session} {s : Schema} (h : (schema sid).run st = .ok s st') :
    st' = st ∧ st.db.schema? sid = some s := by
  obtain ⟨db, st₁, h₁, h₂⟩ := run_bind_ok h
  obtain ⟨rfl, rfl⟩ := database_run h₁
  cases hs : st₁.db.schema? sid with
  | none => rw [hs] at h₂; cases h₂
  | some s' => rw [hs] at h₂; cases h₂; exact ⟨rfl, rfl⟩

theorem table_run {sid tid : Id} {st st' : Session} {t : Table}
    (h : (table sid tid).run st = .ok t st') :
    st' = st ∧ ∃ s, st.db.schema? sid = some s ∧ s.table? tid = some t := by
  obtain ⟨s, st₁, h₁, h₂⟩ := run_bind_ok h
  obtain ⟨rfl, hs⟩ := schema_run h₁
  cases ht : s.table? tid with
  | none => rw [ht] at h₂; cases h₂
  | some t' => rw [ht] at h₂; cases h₂; exact ⟨rfl, s, hs, ht⟩

theorem column_run {sid tid cid : Id} {st st' : Session} {c : Column}
    (h : (column sid tid cid).run st = .ok c st') :
    st' = st ∧ ∃ s t, st.db.schema? sid = some s ∧ s.table? tid = some t ∧ t.column? cid = some c := by
  obtain ⟨t, st₁, h₁, h₂⟩ := run_bind_ok h
  obtain ⟨rfl, s, hs, ht⟩ := table_run h₁
  cases hc : t.column? cid with
  | none => rw [hc] at h₂; cases h₂
  | some c' => rw [hc] at h₂; cases h₂; exact ⟨rfl, s, t, hs, ht, hc⟩

theorem ensureFreshId_run {entity : String} {id : Id} {st st' : Session} {u : Unit}
    (h : (ensureFreshId entity id).run st = .ok u st') : st' = st ∧ st.db.usesId id = false := by
  obtain ⟨db, st₁, h₁, h₂⟩ := run_bind_ok h
  obtain ⟨rfl, rfl⟩ := database_run h₁
  cases hu : st₁.db.usesId id with
  | true => rw [hu] at h₂; cases h₂
  | false => rw [hu] at h₂; cases h₂; exact ⟨rfl, rfl⟩

theorem check_run {r : Except DesignError Unit} {st st' : Session} {u : Unit}
    (h : (check r).run st = .ok u st') : st' = st ∧ r = .ok () := by
  unfold check at h
  split at h
  · cases h
    exact ⟨rfl, rfl⟩
  · cases h

theorem ofExcept_run {α : Type} {r : Except DesignError α} {st st' : Session} {a : α}
    (h : (ofExcept r).run st = .ok a st') : st' = st ∧ r = .ok a := by
  unfold ofExcept at h
  split at h
  · cases h
    exact ⟨rfl, rfl⟩
  · cases h

theorem reads_database : Reads (fun a db => a = db) database :=
  fun _ _ _ h => ⟨(database_run h).1 ▸ rfl, (database_run h).2⟩

theorem reads_schema (sid : Id) : Reads (fun s db => db.schema? sid = some s) (schema sid) :=
  fun _ _ _ h => ⟨(schema_run h).1 ▸ rfl, (schema_run h).2⟩

theorem reads_table (sid tid : Id) : Reads (Database.FindsTable sid tid) (table sid tid) :=
  fun _ _ _ h => ⟨(table_run h).1 ▸ rfl, (table_run h).2⟩

theorem reads_ensureFreshId (entity : String) (id : Id) :
    Reads (fun _ db => db.usesId id = false) (ensureFreshId entity id) :=
  fun _ _ _ h => ⟨(ensureFreshId_run h).1 ▸ rfl, (ensureFreshId_run h).2⟩

theorem reads_check (r : Except DesignError Unit) : Reads (fun _ _ => r = .ok ()) (check r) :=
  fun _ _ _ h => ⟨(check_run h).1 ▸ rfl, (check_run h).2⟩

theorem keeps_config : Keeps Eq config := fun _ _ _ h => (config_run h).1 ▸ rfl

theorem keeps_database : Keeps Eq database := fun _ _ _ h => (database_run h).1 ▸ rfl

theorem keeps_mint : Keeps Eq mint := fun _ _ _ h => (mint_run h).symm

theorem keeps_emit (e : Event) : Keeps Eq (emit e) := fun _ _ _ h => (emit_run h).symm

theorem keeps_schema (sid : Id) : Keeps Eq (schema sid) := (reads_schema sid).keeps

theorem keeps_table (sid tid : Id) : Keeps Eq (table sid tid) := (reads_table sid tid).keeps

theorem keeps_column (sid tid cid : Id) : Keeps Eq (column sid tid cid) :=
  fun _ _ _ h => (column_run h).1 ▸ rfl

theorem keeps_ensureFreshId (entity : String) (id : Id) : Keeps Eq (ensureFreshId entity id) :=
  (reads_ensureFreshId entity id).keeps

theorem keeps_check (r : Except DesignError Unit) : Keeps Eq (check r) := (reads_check r).keeps

/-! ## Changing a schema or a table -/

theorem setDatabase_run {db : Database} {st st' : Session} {u : Unit}
    (h : (setDatabase db).run st = .ok u st') : st'.db = db := by
  have hrun : (setDatabase db).run st = .ok () { st with db } := rfl
  rw [hrun] at h
  cases h
  rfl

/-- A successful `modifySchema` changes the first schema with the id, which exists. -/
theorem modifySchema_run {sid : Id} {f : Schema → Schema} {st st' : Session} {u : Unit}
    (h : (modifySchema sid f).run st = .ok u st') :
    st'.db = { st.db with schemas := updateFirst (·.id = sid) f st.db.schemas } ∧
      ∃ s, st.db.schema? sid = some s := by
  obtain ⟨s, st₁, h₁, h₂⟩ := run_bind_ok h
  obtain ⟨rfl, hs⟩ := schema_run h₁
  obtain ⟨db, st₂, h₃, h₄⟩ := run_bind_ok h₂
  obtain ⟨rfl, rfl⟩ := database_run h₃
  exact ⟨setDatabase_run h₄, s, hs⟩

theorem modifyTable_run {sid tid : Id} {f : Table → Table} {st st' : Session} {u : Unit}
    (h : (modifyTable sid tid f).run st = .ok u st') :
    st'.db = st.db.updateTable sid tid f ∧
      ∃ s t, st.db.schema? sid = some s ∧ s.table? tid = some t := by
  obtain ⟨t, st₁, h₁, h₂⟩ := run_bind_ok h
  obtain ⟨rfl, s, hs, ht⟩ := table_run h₁
  exact ⟨(modifySchema_run h₂).1, s, t, hs, ht⟩

theorem keepsFrom_setDatabase {P : Database → Prop} {R : Database → Database → Prop}
    {db' : Database} (h : ∀ db, P db → R db db') : KeepsFrom P R (setDatabase db') := by
  intro st u st' hp hr
  rw [setDatabase_run hr]
  exact h _ hp

theorem keepsFrom_modifySchema {P : Database → Prop} {R : Database → Database → Prop} {sid : Id}
    {f : Schema → Schema}
    (h : ∀ db s, P db → db.schema? sid = some s →
      R db { db with schemas := updateFirst (·.id = sid) f db.schemas }) :
    KeepsFrom P R (modifySchema sid f) := by
  intro st u st' hp hr
  obtain ⟨hdb, s, hs⟩ := modifySchema_run hr
  rw [hdb]
  exact h _ s hp hs

theorem keepsFrom_modifyTable {P : Database → Prop} {R : Database → Database → Prop}
    {sid tid : Id} {f : Table → Table}
    (h : ∀ db s t, P db → db.schema? sid = some s → s.table? tid = some t →
      R db (db.updateTable sid tid f)) :
    KeepsFrom P R (modifyTable sid tid f) := by
  intro st u st' hp hr
  obtain ⟨hdb, s, t, hs, ht⟩ := modifyTable_run hr
  rw [hdb]
  exact h _ s t hp hs ht

theorem ensures_modifyTable {sid tid : Id} {f : Table → Table} {Q : Table → Prop}
    (hf : ∀ t, t.id = tid → (f t).id = tid) (hQ : ∀ t, t.id = tid → Q (f t)) :
    Ensures (fun db => ∀ t', db.FindsTable sid tid t' → Q t') (modifyTable sid tid f) := by
  intro st u st' h t' ht'
  rw [(modifyTable_run h).1, Database.findsTable_updateTable hf] at ht'
  obtain ⟨t, ht, rfl⟩ := ht'
  exact hQ t ht.id_eq

section Tablewise

variable {T : Table → Table → Prop} [IsPreorder Table T]

/-- Changing the table a lookup finds, by a change `T` allows, relates the snapshots. -/
theorem tablewise_updateTable {db : Database} {sid tid : Id} {s : Schema} {t : Table}
    (hs : db.schema? sid = some s) (ht : s.table? tid = some t) {f : Table → Table}
    (hf : T t (f t)) : db.Tablewise T (db.updateTable sid tid f) := by
  refine ⟨rfl, forall₂_updateFirst (fun s => ⟨rfl, List.forall₂_refl s.tables⟩) _ _ _ ?_⟩
  intro s' hs'
  rw [Database.schema?, hs'] at hs
  cases hs
  refine ⟨rfl, forall₂_updateFirst (fun t => Std.Refl.refl t) _ _ _ ?_⟩
  intro t' ht'
  rw [Schema.table?, ht'] at ht
  cases ht
  exact hf

theorem keeps_modifyTable {sid tid : Id} {f : Table → Table} (hf : ∀ t, t.id = tid → T t (f t)) :
    Keeps (Database.Tablewise T) (modifyTable sid tid f) := by
  intro st u st' h
  obtain ⟨hdb, s, t, hs, ht⟩ := modifyTable_run h
  rw [hdb]
  exact tablewise_updateTable hs ht (hf t (by simpa using List.find?_some ht))

theorem keepsFrom_putTable {sid tid : Id} {t t' : Table} (h : T t t') :
    KeepsFrom (Database.FindsTable sid tid t) (Database.Tablewise T) (putTable sid tid t') := by
  rintro st u st' ⟨s, hs, ht⟩ hr
  obtain ⟨hdb, s₀, t₀, hs₀, ht₀⟩ := modifyTable_run hr
  rw [hdb]
  exact tablewise_updateTable hs ht h

theorem keeps_modifySchema {sid : Id} {f : Schema → Schema}
    (hf : ∀ s, s.id = sid → (f s).id = s.id ∧ List.Forall₂ T s.tables (f s).tables) :
    Keeps (Database.Tablewise T) (modifySchema sid f) := by
  intro st u st' h
  rw [(modifySchema_run h).1]
  exact ⟨rfl, forall₂_updateFirst (fun s => ⟨rfl, List.forall₂_refl s.tables⟩) _ _ _
    (fun s hs => hf s (by simpa using List.find?_some hs))⟩

end Tablewise

end EditM

end SchemaDesign
