/-
Rows under uniqueness constraints.

Both stores of the guard are SQLite databases whose tables carry `PRIMARY KEY` and
`UNIQUE` constraints. A `Table` is a list of rows together with the proof that any
two of them are compatible, so a table that breaks its constraints cannot be built:
a statement that would break one has no result. A statement that changes rows is the
list of rows it leaves behind, checked.

Seen through one of its keys a table is a partial map, `lookup key k`, and the lemmas
on `insert`, `delete` and `upsert` say what each statement does to that map. They are
what the proofs about the stores use; nothing here knows which tables there are.
-/
import Mathlib.Tactic

set_option autoImplicit false

namespace F2bguard.Tables

/-- A column under `CHECK (column IN (0, 1))` is a `Fin 2`. -/
instance ne_zero_check : NeZero 2 := ⟨by decide⟩

/-- Rows of which any two are compatible. -/
structure Table (ρ : Type*) (Compat : ρ → ρ → Prop) where
  rows : List ρ
  distinct : rows.Pairwise Compat

namespace Table

variable {ρ : Type*} {Compat : ρ → ρ → Prop}

@[ext] theorem ext {t t' : Table ρ Compat} (h : t.rows = t'.rows) : t = t' := by
  cases t
  cases t'
  simp_all

def empty : Table ρ Compat := ⟨[], List.Pairwise.nil⟩

@[simp] theorem rows_empty : (empty : Table ρ Compat).rows = [] := rfl

/-! ## Statements

A statement is a function from the table to the table, or to an `Option` of it where a constraint
may be broken. SQLite checks a constraint row by row and undoes the statement when one fails; the
check of all rows at the end gives the same, for the statements that occur. -/

/-- The rows a statement leaves, or `none` when they break a constraint. All statements that may
fail go through this one. -/
def checked [DecidableRel Compat] (rows : List ρ) : Option (Table ρ Compat) :=
  if h : rows.Pairwise Compat then some ⟨rows, h⟩ else none

/-- `INSERT`. -/
def insert [DecidableRel Compat] (t : Table ρ Compat) (r : ρ) : Option (Table ρ Compat) :=
  checked (t.rows ++ [r])

/-- `UPDATE … WHERE p`. -/
def update [DecidableRel Compat] (t : Table ρ Compat) (p : ρ → Bool) (f : ρ → ρ) :
    Option (Table ρ Compat) :=
  checked (t.rows.map (fun r => if p r then f r else r))

/-- `INSERT … ON CONFLICT(key) DO UPDATE`, where `p` says which row has the key. -/
def upsert [DecidableRel Compat] (t : Table ρ Compat) (p : ρ → Bool) (f : ρ → ρ) (r : ρ) :
    Option (Table ρ Compat) :=
  if t.rows.any p then t.update p f else t.insert r

/-- `UPDATE … WHERE p` of columns that no constraint mentions. -/
def modify (t : Table ρ Compat) (p : ρ → Bool) (f : ρ → ρ)
    (hf : ∀ x y, Compat x y → Compat (if p x then f x else x) (if p y then f y else y)) :
    Table ρ Compat :=
  ⟨t.rows.map (fun r => if p r then f r else r), t.distinct.map _ hf⟩

/-- `DELETE … WHERE p`. -/
def delete (t : Table ρ Compat) (p : ρ → Bool) : Table ρ Compat :=
  ⟨t.rows.filter (fun r => !p r), t.distinct.filter _⟩

@[simp] theorem rows_delete (t : Table ρ Compat) (p : ρ → Bool) :
    (t.delete p).rows = t.rows.filter (fun r => !p r) := rfl

theorem mem_delete {t : Table ρ Compat} {p : ρ → Bool} {r : ρ} :
    r ∈ (t.delete p).rows ↔ r ∈ t.rows ∧ p r = false := by
  simp

/-- The rows that satisfy `p`. -/
def only (t : Table ρ Compat) (p : ρ → Bool) : Table ρ Compat :=
  ⟨t.rows.filter p, t.distinct.filter _⟩

@[simp] theorem rows_only (t : Table ρ Compat) (p : ρ → Bool) :
    (t.only p).rows = t.rows.filter p := rfl

theorem only_delete (t : Table ρ Compat) (p q : ρ → Bool) :
    (t.delete q).only p = (t.only p).delete q := by
  apply ext
  simp only [rows_only, rows_delete]
  exact List.filter_comm _ _ _

theorem only_delete_of_disjoint (t : Table ρ Compat) {p q : ρ → Bool}
    (h : ∀ r, p r = true → q r = false) : (t.delete q).only p = t.only p := by
  apply ext
  simp only [rows_only, rows_delete, List.filter_filter]
  apply List.filter_congr
  intro r hr
  cases hp : p r with
  | false => rfl
  | true => simp [h r hp]

theorem only_modify (t : Table ρ Compat) {p q : ρ → Bool} {f : ρ → ρ}
    (hf : ∀ x y, Compat x y → Compat (if q x then f x else x) (if q y then f y else y))
    (hp : ∀ r, p (f r) = p r) : (t.modify q f hf).only p = (t.only p).modify q f hf := by
  apply ext
  simp only [rows_only, modify]
  rw [List.filter_map]
  congr 1
  apply List.filter_congr
  intro r _
  simp only [Function.comp_apply]
  split
  · rw [hp]
  · rfl

theorem only_modify_of_disjoint (t : Table ρ Compat) {p q : ρ → Bool} {f : ρ → ρ}
    (hf : ∀ x y, Compat x y → Compat (if q x then f x else x) (if q y then f y else y))
    (hp : ∀ r, p (f r) = p r) (h : ∀ r, p r = true → q r = false) :
    (t.modify q f hf).only p = t.only p := by
  rw [only_modify t hf hp]
  apply ext
  simp only [rows_only, modify]
  have hsame : ∀ r ∈ t.rows.filter p, (if q r then f r else r) = r := by
    intro r hr
    simp [h r (List.mem_filter.mp hr).2]
  rw [List.map_congr_left hsame, List.map_id']

section Constraints

variable [DecidableRel Compat]

theorem checked_eq_some {rows : List ρ} {t : Table ρ Compat} :
    checked rows = some t ↔ t.rows = rows := by
  unfold checked
  constructor
  · intro h
    split at h
    · cases h
      rfl
    · cases h
  · rintro rfl
    rw [dif_pos t.distinct]

theorem checked_of_pairwise {rows : List ρ} (h : rows.Pairwise Compat) :
    checked rows = some ⟨rows, h⟩ := dif_pos h

theorem insert_eq_some {t t' : Table ρ Compat} {r : ρ} :
    t.insert r = some t' ↔ t'.rows = t.rows ++ [r] := checked_eq_some

/-- An insertion goes through exactly when the row is compatible with those there. -/
theorem insert_isSome {t : Table ρ Compat} {r : ρ} :
    (t.insert r).isSome ↔ ∀ x ∈ t.rows, Compat x r := by
  have hiff : (t.rows ++ [r]).Pairwise Compat ↔ ∀ x ∈ t.rows, Compat x r := by
    rw [List.pairwise_append]
    simp [t.distinct]
  rw [← hiff, insert, checked]
  split <;> simp_all

theorem compat_of_insert {t t' : Table ρ Compat} {r : ρ} (h : t.insert r = some t') :
    ∀ x ∈ t.rows, Compat x r :=
  insert_isSome.mp (by rw [h]; rfl)

theorem update_eq_some {t t' : Table ρ Compat} {p : ρ → Bool} {f : ρ → ρ} :
    t.update p f = some t' ↔ t'.rows = t.rows.map (fun r => if p r then f r else r) :=
  checked_eq_some

/-- An update that leaves the constrained columns alone goes through. -/
theorem update_eq_modify {t : Table ρ Compat} {p : ρ → Bool} {f : ρ → ρ}
    (hf : ∀ x y, Compat x y → Compat (if p x then f x else x) (if p y then f y else y)) :
    t.update p f = some (t.modify p f hf) := checked_of_pairwise (t.distinct.map _ hf)

theorem upsert_of_any {t : Table ρ Compat} {p : ρ → Bool} {f : ρ → ρ} {r : ρ}
    (h : t.rows.any p = true) : t.upsert p f r = t.update p f := if_pos h

theorem upsert_of_not_any {t : Table ρ Compat} {p : ρ → Bool} {f : ρ → ρ} {r : ρ}
    (h : t.rows.any p = false) : t.upsert p f r = t.insert r := by
  rw [upsert, if_neg (by rw [h]; decide)]

end Constraints

section Restriction

variable [DecidableRel Compat]

/-- A row that belongs to a part of the table competes with that part only. -/
theorem insert_only {t : Table ρ Compat} {p : ρ → Bool} {r : ρ} (hr : p r = true)
    (hcompat : ∀ x, p x = false → Compat x r) :
    (t.only p).insert r = (t.insert r).map (fun t => t.only p) := by
  cases hi : t.insert r with
  | some t' =>
    have hrows := insert_eq_some.mp hi
    rw [Option.map_some, insert_eq_some, rows_only, rows_only, hrows, List.filter_append,
      List.filter_cons_of_pos hr, List.filter_nil]
  | none =>
    rw [Option.map_none, ← Option.not_isSome_iff_eq_none, insert_isSome]
    intro hall
    have hsome : (t.insert r).isSome := by
      rw [insert_isSome]
      intro x hx
      cases hp : p x with
      | false => exact hcompat x hp
      | true => exact hall x (List.mem_filter.mpr ⟨hx, hp⟩)
    rw [hi] at hsome
    simp at hsome

theorem only_insert_of_not {t t' : Table ρ Compat} {p : ρ → Bool} {r : ρ} (hr : p r = false)
    (h : t.insert r = some t') : t'.only p = t.only p := by
  apply ext
  rw [rows_only, rows_only, insert_eq_some.mp h, List.filter_append, List.filter_cons_of_neg,
    List.filter_nil, List.append_nil]
  simp [hr]

/-- An upsert under a key that only rows of a part have. -/
theorem upsert_only {t : Table ρ Compat} {p q : ρ → Bool} {f : ρ → ρ} {r : ρ}
    (hf : ∀ x y, Compat x y → Compat (if q x then f x else x) (if q y then f y else y))
    (hp : ∀ x, p (f x) = p x) (hq : ∀ x, q x = true → p x = true) (hr : p r = true)
    (hcompat : ∀ x, p x = false → Compat x r) :
    (t.only p).upsert q f r = (t.upsert q f r).map (fun t => t.only p) := by
  have hany : (t.only p).rows.any q = t.rows.any q := by
    rw [rows_only, List.any_filter]
    congr 1
    funext x
    cases hx : q x with
    | false => simp
    | true => simp [hq x hx]
  unfold upsert
  rw [hany]
  split
  · rw [update_eq_modify hf, update_eq_modify hf, Option.map_some, only_modify t hf hp]
  · exact insert_only hr hcompat

theorem only_upsert_of_not {t t' : Table ρ Compat} {p q : ρ → Bool} {f : ρ → ρ} {r : ρ}
    (hf : ∀ x y, Compat x y → Compat (if q x then f x else x) (if q y then f y else y))
    (hp : ∀ x, p (f x) = p x) (hq : ∀ x, p x = true → q x = false) (hr : p r = false)
    (h : t.upsert q f r = some t') : t'.only p = t.only p := by
  unfold upsert at h
  split at h
  · rw [update_eq_modify hf] at h
    cases h
    exact only_modify_of_disjoint t hf hp hq
  · exact only_insert_of_not hr h

end Restriction

/-! ## A table as a partial map -/

section Lookup

variable {κ : Type*} [DecidableEq κ] (key : ρ → κ)

/-- The row with a key. -/
def lookup (t : Table ρ Compat) (k : κ) : Option ρ := t.rows.find? (fun r => key r = k)

variable {key}

theorem lookup_some_mem {t : Table ρ Compat} {k : κ} {r : ρ} (h : t.lookup key k = some r) :
    r ∈ t.rows ∧ key r = k := by
  refine ⟨List.mem_of_find?_eq_some h, ?_⟩
  have := List.find?_some h
  simpa using this

theorem lookup_eq_none {t : Table ρ Compat} {k : κ} :
    t.lookup key k = none ↔ ∀ r ∈ t.rows, key r ≠ k := by
  simp [lookup, List.find?_eq_none]

@[simp] theorem lookup_empty (k : κ) : (empty : Table ρ Compat).lookup key k = none := rfl

/-- The constraint makes the key unique. -/
def Unique (Compat : ρ → ρ → Prop) (key : ρ → κ) : Prop := ∀ x y, Compat x y → key x ≠ key y

omit [DecidableEq κ] in
theorem eq_of_key (hkey : Unique Compat key) {t : Table ρ Compat} {x y : ρ} (hx : x ∈ t.rows)
    (hy : y ∈ t.rows) (hxy : key x = key y) : x = y := by
  by_contra hne
  have hpair : t.rows.Pairwise (fun a b => key a ≠ key b) := t.distinct.imp (hkey _ _)
  have : Std.Symm (fun a b : ρ => key a ≠ key b) := ⟨fun _ _ h => h.symm⟩
  exact hpair.forall hx hy hne hxy

theorem lookup_eq_some (hkey : Unique Compat key) {t : Table ρ Compat} {k : κ} {r : ρ} :
    t.lookup key k = some r ↔ r ∈ t.rows ∧ key r = k := by
  refine ⟨lookup_some_mem, ?_⟩
  rintro ⟨hr, hk⟩
  cases hl : t.lookup key k with
  | none => exact absurd hk (lookup_eq_none.mp hl r hr)
  | some r' =>
    obtain ⟨hr', hk'⟩ := lookup_some_mem hl
    rw [eq_of_key hkey hr' hr (hk'.trans hk.symm)]

/-- Looking up a key that only rows of a part have. -/
theorem lookup_only (t : Table ρ Compat) {p : ρ → Bool} {k : κ}
    (h : ∀ r, key r = k → p r = true) : (t.only p).lookup key k = t.lookup key k := by
  rw [lookup, lookup, rows_only, List.find?_filter]
  congr 1
  funext r
  by_cases hr : key r = k
  · simp [hr, h r hr]
  · simp [hr]

theorem lookup_delete (hkey : Unique Compat key) (t : Table ρ Compat) (p : ρ → Bool) (k : κ) :
    (t.delete p).lookup key k = (t.lookup key k).filter (fun r => !p r) := by
  apply Option.ext
  intro r
  rw [lookup_eq_some hkey, mem_delete, Option.filter_eq_some_iff, lookup_eq_some hkey]
  simp only [Bool.not_eq_true']
  tauto

/-- Changing the row of one key, without changing that key. -/
theorem lookup_map_rows (hkey : Unique Compat key) {t t' : Table ρ Compat} {f : ρ → ρ} {k : κ}
    (hf : ∀ x, key x = k → key (f x) = k)
    (hrows : t'.rows = t.rows.map (fun r => if decide (key r = k) then f r else r)) (k' : κ) :
    t'.lookup key k' = if k = k' then (t.lookup key k').map f else t.lookup key k' := by
  apply Option.ext
  intro x
  rw [lookup_eq_some hkey, hrows]
  simp only [List.mem_map, decide_eq_true_eq]
  split
  · rename_i hk
    subst hk
    rw [Option.map_eq_some_iff]
    constructor
    · rintro ⟨⟨y, hy, rfl⟩, hkx⟩
      by_cases hyk : key y = k
      · rw [if_pos hyk]
        exact ⟨y, (lookup_eq_some hkey).mpr ⟨hy, hyk⟩, rfl⟩
      · rw [if_neg hyk] at hkx
        exact absurd hkx hyk
    · rintro ⟨y, hy, rfl⟩
      obtain ⟨hy, hyk⟩ := (lookup_eq_some hkey).mp hy
      exact ⟨⟨y, hy, if_pos hyk⟩, hf y hyk⟩
  · rename_i hk
    rw [lookup_eq_some hkey]
    constructor
    · rintro ⟨⟨y, hy, rfl⟩, hkx⟩
      by_cases hyk : key y = k
      · rw [if_pos hyk, hf y hyk] at hkx
        exact absurd hkx hk
      · rw [if_neg hyk] at hkx ⊢
        exact ⟨hy, hkx⟩
    · rintro ⟨hx, hkx⟩
      exact ⟨⟨x, hx, if_neg (fun hxk => hk (hxk.symm.trans hkx))⟩, hkx⟩

theorem lookup_modify (hkey : Unique Compat key) {t : Table ρ Compat} {f : ρ → ρ} {k : κ}
    (hf : ∀ x, key x = k → key (f x) = k)
    (hcompat : ∀ x y, Compat x y → Compat (if decide (key x = k) then f x else x)
      (if decide (key y = k) then f y else y)) (k' : κ) :
    (t.modify (fun r => key r = k) f hcompat).lookup key k' =
      if k = k' then (t.lookup key k').map f else t.lookup key k' :=
  lookup_map_rows hkey hf rfl k'

variable [DecidableRel Compat]

theorem lookup_insert (hkey : Unique Compat key) {t t' : Table ρ Compat} {r : ρ}
    (h : t.insert r = some t') (k : κ) :
    t'.lookup key k = if key r = k then some r else t.lookup key k := by
  have hrows := insert_eq_some.mp h
  have hcompat := compat_of_insert h
  apply Option.ext
  intro x
  rw [lookup_eq_some hkey, hrows, List.mem_append, List.mem_singleton]
  split
  · rename_i hk
    constructor
    · rintro ⟨hx | rfl, hxk⟩
      · exact absurd (hxk.trans hk.symm) (hkey _ _ (hcompat x hx))
      · rfl
    · intro hx
      cases hx
      exact ⟨Or.inr rfl, hk⟩
  · rename_i hk
    rw [lookup_eq_some hkey]
    constructor
    · rintro ⟨hx | rfl, hxk⟩
      · exact ⟨hx, hxk⟩
      · exact absurd hxk hk
    · rintro ⟨hx, hxk⟩
      exact ⟨Or.inl hx, hxk⟩

theorem lookup_update (hkey : Unique Compat key) {t t' : Table ρ Compat} {f : ρ → ρ} {k : κ}
    (hf : ∀ x, key x = k → key (f x) = k) (h : t.update (fun r => key r = k) f = some t')
    (k' : κ) :
    t'.lookup key k' = if k = k' then (t.lookup key k').map f else t.lookup key k' :=
  lookup_map_rows hkey hf (update_eq_some.mp h) k'

/-- After an upsert the key has the new row, or the old one updated. -/
theorem lookup_upsert (hkey : Unique Compat key) {t t' : Table ρ Compat} {f : ρ → ρ} {r : ρ}
    (hf : ∀ x, key x = key r → key (f x) = key r)
    (h : t.upsert (fun x => key x = key r) f r = some t') (k : κ) :
    t'.lookup key k =
      if key r = k then some ((t.lookup key (key r)).elim r f) else t.lookup key k := by
  by_cases hany : t.rows.any (fun x => key x = key r) = true
  · rw [upsert_of_any hany] at h
    rw [lookup_update hkey hf h]
    split
    · rename_i hk
      subst hk
      obtain ⟨x, hx, hxk⟩ := List.any_eq_true.mp hany
      rw [(lookup_eq_some hkey).mpr ⟨hx, by simpa using hxk⟩]
      rfl
    · rfl
  · rw [Bool.not_eq_true] at hany
    rw [upsert_of_not_any hany] at h
    have hnone : t.lookup key (key r) = none := by
      rw [lookup_eq_none]
      intro x hx
      have := List.any_eq_false.mp hany x hx
      simpa using this
    rw [lookup_insert hkey h, hnone]
    rfl

end Lookup

end Table

end F2bguard.Tables
