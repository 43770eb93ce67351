/-
A Python `dict` as the list of its items in the order of insertion.

`set` replaces the value of a key that is there and appends the item otherwise, so that an item
that is set later overwrites the earlier one without a trace. A dict that is built from items
holds the last item of each key (`get_of_items`); it holds all of them exactly when no key
repeats (`of_items_eq`).

Since Python 3.7 the order of the items is part of what a `dict` is, and the callers rely on it
when they print one or loop over it. So the model is the list itself and not a function.
-/
import Mathlib.Data.List.Induction
import Mathlib.Data.List.Nodup

set_option autoImplicit false

namespace F2bguard.PyDict

variable {κ α : Type*} [DecidableEq κ]

/-- `d.get(key)` -/
def get (d : List (κ × α)) (key : κ) : Option α :=
  (d.find? (fun item => item.1 = key)).map Prod.snd

/-- `d[key] = value` -/
def set (d : List (κ × α)) (key : κ) (value : α) : List (κ × α) :=
  if d.any (fun item => item.1 = key) then
    d.map (fun item => if item.1 = key then (key, value) else item)
  else d ++ [(key, value)]

/-- `{key: value for key, value in items}` -/
def of_items (items : List (κ × α)) : List (κ × α) :=
  items.foldl (fun d item => set d item.1 item.2) []

theorem get_map {d : List (κ × α)} {key key' : κ} {value : α} :
    get (d.map (fun item => if item.1 = key then (key, value) else item)) key' =
      if key' = key ∧ d.any (fun item => item.1 = key) then some value else get d key' := by
  induction d with
  | nil => simp [get]
  | cons item d ih =>
    unfold get at ih ⊢
    rw [List.map_cons, List.find?_cons, List.find?_cons]
    by_cases hitem : item.1 = key
    · by_cases hkey : key' = key
      · simp [hitem, hkey]
      · have hne : ¬ item.1 = key' := fun h => hkey (h.symm.trans hitem)
        have hne' : ¬ key = key' := fun h => hkey h.symm
        simp only [hitem, if_true, hne', decide_false]
        rw [ih]
        simp [hkey]
    · simp only [hitem, if_false]
      by_cases hkey : item.1 = key'
      · have hne : ¬ key' = key := fun h => hitem (hkey.trans h)
        simp [hkey, hne]
      · simp only [hkey, decide_false]
        rw [ih, List.any_cons, decide_eq_false hitem, Bool.false_or]

theorem get_set (d : List (κ × α)) (key key' : κ) (value : α) :
    get (set d key value) key' = if key' = key then some value else get d key' := by
  unfold set
  split
  · rename_i hany
    rw [get_map]
    by_cases hkey : key' = key
    · rw [if_pos ⟨hkey, hany⟩, if_pos hkey]
    · rw [if_neg (fun h => hkey h.1), if_neg hkey]
  · rename_i hany
    unfold get
    rw [List.find?_append]
    by_cases hkey : key' = key
    · have hnone : d.find? (fun item => item.1 = key') = none := by
        rw [List.find?_eq_none]
        intro item hitem hfound
        refine hany (List.any_eq_true.mpr ⟨item, hitem, ?_⟩)
        rw [← hkey]
        exact hfound
      rw [hnone, if_pos hkey]
      simp [hkey]
    · have hne : ¬ key = key' := fun h => hkey h.symm
      rw [if_neg hkey, List.find?_singleton]
      simp [hne]

/-- The last item of a key is the one that is left. -/
theorem get_of_items (items : List (κ × α)) (key : κ) :
    get (of_items items) key = (items.reverse.find? (fun item => item.1 = key)).map Prod.snd := by
  induction items using List.reverseRecOn with
  | nil => rfl
  | append_singleton items item ih =>
    rw [of_items, List.foldl_append, List.foldl_cons, List.foldl_nil, get_set, List.reverse_append,
      List.reverse_singleton, List.singleton_append, List.find?_cons]
    by_cases hkey : item.1 = key
    · simp [hkey]
    · rw [if_neg (fun h => hkey h.symm)]
      simp only [hkey, decide_false]
      exact ih

/-- No item is lost when no key repeats. -/
theorem of_items_eq {items : List (κ × α)} (h : (items.map Prod.fst).Nodup) :
    of_items items = items := by
  induction items using List.reverseRecOn with
  | nil => rfl
  | append_singleton items item ih =>
    rw [List.map_append, List.nodup_append] at h
    have hnew : ¬ items.any (fun other => other.1 = item.1) = true := by
      rw [List.any_eq_true]
      rintro ⟨other, hother, hsame⟩
      exact h.2.2 other.1 (List.mem_map.mpr ⟨other, hother, rfl⟩) item.1 (by simp)
        (of_decide_eq_true hsame)
    rw [of_items, List.foldl_append, List.foldl_cons, List.foldl_nil]
    rw [of_items] at ih
    rw [ih h.1, set, if_neg hnew]

theorem get_eq_some {d : List (κ × α)} (h : (d.map Prod.fst).Nodup) {key : κ} {value : α} :
    get d key = some value ↔ (key, value) ∈ d := by
  unfold get
  rw [Option.map_eq_some_iff]
  constructor
  · rintro ⟨item, hfind, rfl⟩
    have hkey : item.1 = key := by simpa using List.find?_some hfind
    rw [← hkey]
    exact List.mem_of_find?_eq_some hfind
  · intro hmem
    refine ⟨(key, value), ?_, rfl⟩
    have hsome : (d.find? (fun item => item.1 = key)).isSome := by
      rw [List.find?_isSome]
      exact ⟨_, hmem, decide_eq_true rfl⟩
    obtain ⟨item, hfind⟩ := Option.isSome_iff_exists.mp hsome
    have hkey : item.1 = key := by simpa using List.find?_some hfind
    rw [hfind, List.inj_on_of_nodup_map h (List.mem_of_find?_eq_some hfind) hmem hkey]

end F2bguard.PyDict
