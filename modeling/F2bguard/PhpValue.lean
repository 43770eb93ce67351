/-
The values of PHP, and what the package calls that is not its own.

An array is an ordered list of entries whose keys are integers or strings. The package
walks such arrays by paths, merges them, and keeps three lists in scalar JSON fields.

`json_encode` and `json_decode` enter as a `JsonCodec`. Of what they do the package relies
on one thing: a list of plain texts and records comes back as it was. `plain_codec` has
this property, with the texts that `PyJson` prints.

`array_get_path` and `config_set_path` are functions of pfSense. They enter as fields of a
`Library`, beside the codec and the casts of PHP, with what is documented of them as its
laws: a path that leads nowhere gives the default, and so does the empty text when the
default is not null; what is set at a path is read there, provided that nothing but arrays
stands in its way. What pfSense does when a text stands there is left open, and every
statement about the package holds whichever it is.
-/
import F2bguard.Php
import F2bguard.PyJson
import Mathlib.Data.Rat.Floor

set_option autoImplicit false

namespace F2bguard.Php

open F2bguard.PyText F2bguard.PyJson

/-- The key of an array entry. A text that is a decimal integer is an integer key. -/
inductive Key
  | int (n : ℤ)
  | str (s : Text)
  deriving DecidableEq

/-- A value of PHP, as far as a configuration holds one: no objects and no references. -/
inductive Value
  | null
  | bool (b : Bool)
  | int (n : ℤ)
  | float (x : PyFloat)
  | str (s : Text)
  | arr (items : List (Key × Value))

abbrev Items := List (Key × Value)

/-- The key of a name in the source. -/
def name (s : String) : Key := .str s.toList

namespace Value

def is_array : Value → Bool
  | .arr _ => true
  | _ => false

/-- The entries of an array. -/
def items : Value → Items
  | .arr items => items
  | _ => []

end Value

/-- `$array[$key] ?? null`, as an option. -/
def get (items : Items) (key : Key) : Option Value :=
  (items.find? (fun item => item.1 = key)).map Prod.snd

/-- `$array[$key] = $value`: an entry that exists keeps its place, a new one comes last. -/
def put (items : Items) (key : Key) (value : Value) : Items :=
  if (get items key).isSome then
    items.map (fun item => if item.1 = key then (key, value) else item)
  else items ++ [(key, value)]

/-- `unset($array[$key])` -/
def unset (items : Items) (key : Key) : Items := items.filter (fun item => item.1 ≠ key)

/-- The value a path leads to, `none` when it leads nowhere. An entry that is null is there. -/
def value_at : Value → List Key → Option Value
  | value, [] => some value
  | .arr items, key :: path => (get items key).bind (fun value => value_at value path)
  | _, _ :: _ => none

/-- What the path meets before its end is an array, as far as it exists. -/
def Unblocked : Value → List Key → Prop
  | _, [] => True
  | .arr items, key :: path => ∀ value, get items key = some value → Unblocked value path
  | _, _ :: _ => False

/-- The array with these values at 0, 1, 2 and so on. -/
def of_list (values : List Value) : Value :=
  .arr (values.zipIdx.map (fun p => (Key.int p.2, p.1)))

/-- `array_values`, as the list of the values. -/
def array_values (items : Items) : List Value := items.map Prod.snd

/-- `(array)$value` -/
def to_array : Value → Items
  | .null => []
  | .arr items => items
  | value => [(.int 0, value)]

mutual

/-- `array_replace_recursive($base, $replacement)`. Arrays on both sides are merged, anything else
is replaced, and entries of the base that the replacement does not name stay. -/
def array_replace_recursive : Items → Items → Items
  | base, [] => base
  | base, (key, value) :: rest =>
      array_replace_recursive (put base key (replace_value (get base key) value)) rest

/-- What the replacement leaves at a key. -/
def replace_value : Option Value → Value → Value
  | some (.arr base), .arr replacement => .arr (array_replace_recursive base replacement)
  | _, .arr replacement => .arr replacement
  | _, .null => .null
  | _, .bool b => .bool b
  | _, .int n => .int n
  | _, .float x => .float x
  | _, .str s => .str s

end

/-- `(int)` of a double: cut to an integer, and beyond 64 bits what is left modulo their number. -/
def dval_to_lval : PyFloat → ℤ
  | .finite q =>
      let n : ℤ := if 0 ≤ q then ⌊q⌋ else -⌊-q⌋
      (n + 2 ^ 63) % 2 ^ 64 - 2 ^ 63
  | .inf _ => 0
  | .nan => 0

/-! ## Facts about arrays

Reading after writing, merging and paths. An entry of another key is never touched. -/

@[simp] theorem get_nil (key : Key) : get [] key = none := rfl

theorem get_cons (item : Key × Value) (items : Items) (key : Key) :
    get (item :: items) key = if item.1 = key then some item.2 else get items key := by
  unfold get
  by_cases h : item.1 = key
  · rw [List.find?_cons_of_pos (by simpa using h), if_pos h]
    rfl
  · rw [List.find?_cons_of_neg (by simpa using h), if_neg h]

theorem get_append (items rest : Items) (key : Key) :
    get (items ++ rest) key = (get items key).orElse (fun _ => get rest key) := by
  induction items with
  | nil => rfl
  | cons item items ih =>
    rw [List.cons_append, get_cons, get_cons, ih]
    split
    · rfl
    · rfl

theorem get_isSome {items : Items} {key : Key} :
    (get items key).isSome ↔ key ∈ items.map Prod.fst := by
  induction items with
  | nil => simp
  | cons item items ih =>
    rw [get_cons, List.map_cons, List.mem_cons]
    by_cases h : item.1 = key
    · rw [if_pos h]
      exact iff_of_true rfl (.inl h.symm)
    · rw [if_neg h, ih]
      exact ⟨.inr, fun hor => hor.resolve_left (fun heq => h heq.symm)⟩

theorem get_eq_none {items : Items} {key : Key} :
    get items key = none ↔ key ∉ items.map Prod.fst := by
  rw [← get_isSome, Bool.not_eq_true, Option.isSome_eq_false_iff, Option.isNone_iff_eq_none]

/-- What is read after a write. -/
theorem get_put (items : Items) (key k : Key) (value : Value) :
    get (put items key value) k = if k = key then some value else get items k := by
  have hmap : ∀ items : Items, get (items.map (fun item => if item.1 = key then (key, value) else item))
      k = if k = key then (get items key).map (fun _ => value) else get items k := by
    intro items
    induction items with
    | nil => split <;> rfl
    | cons item items ih =>
      rw [List.map_cons, get_cons, ih, get_cons, get_cons]
      by_cases hitem : item.1 = key
      · rw [if_pos hitem, if_pos hitem]
        by_cases hk : k = key
        · rw [if_pos hk.symm, if_pos hk]
          rfl
        · rw [if_neg (fun h => hk h.symm), if_neg hk, if_neg hk, if_neg (fun h => hk (h.symm.trans hitem))]
      · rw [if_neg hitem, if_neg hitem]
        by_cases hk : k = key
        · subst hk
          rw [if_neg hitem, if_pos rfl, if_pos rfl]
        · rw [if_neg hk, if_neg hk]
  unfold put
  split
  · rename_i hsome
    obtain ⟨old, hold⟩ := Option.isSome_iff_exists.mp hsome
    rw [hmap, hold]
    rfl
  · rename_i hnone
    rw [Bool.not_eq_true, Option.isSome_eq_false_iff, Option.isNone_iff_eq_none] at hnone
    rw [get_append, get_cons, get_nil]
    by_cases hk : k = key
    · subst hk
      rw [hnone, if_pos rfl]
      rfl
    · rw [if_neg hk, if_neg (fun h => hk h.symm)]
      cases get items k <;> rfl

@[simp] theorem get_put_self (items : Items) (key : Key) (value : Value) :
    get (put items key value) key = some value := by
  rw [get_put, if_pos rfl]

theorem get_put_of_ne {items : Items} {key k : Key} {value : Value} (h : k ≠ key) :
    get (put items key value) k = get items k := by
  rw [get_put, if_neg h]

theorem get_unset (items : Items) (key k : Key) :
    get (unset items key) k = if k = key then none else get items k := by
  induction items with
  | nil => split <;> rfl
  | cons item items ih =>
    unfold unset at ih ⊢
    by_cases hitem : item.1 = key
    · rw [List.filter_cons_of_neg (by simpa using hitem), ih, get_cons]
      by_cases hk : k = key
      · rw [if_pos hk, if_pos hk]
      · rw [if_neg hk, if_neg hk, if_neg (fun h => hk (h.symm.trans hitem))]
    · rw [List.filter_cons_of_pos (by simpa using hitem), get_cons, ih, get_cons]
      by_cases hk : k = key
      · subst hk
        rw [if_neg hitem, if_pos rfl, if_pos rfl]
      · rw [if_neg hk, if_neg hk]

theorem value_at_append (value : Value) (path rest : List Key) :
    value_at value (path ++ rest) = (value_at value path).bind (fun v => value_at v rest) := by
  induction path generalizing value with
  | nil => rfl
  | cons key path ih =>
    cases value with
    | arr items =>
      rw [List.cons_append, value_at, value_at]
      cases get items key with
      | none => rfl
      | some v => exact ih v
    | _ => rfl

/-- A path that leads somewhere is unblocked. -/
theorem unblocked_of_value_at {root v : Value} {path : List Key} (h : value_at root path = some v) :
    Unblocked root path := by
  induction path generalizing root with
  | nil => cases root <;> exact trivial
  | cons key path ih =>
    cases root with
    | arr items =>
      rw [value_at] at h
      obtain ⟨value, hget, hrest⟩ := Option.bind_eq_some_iff.mp h
      intro value' hget'
      rw [hget] at hget'
      cases hget'
      exact ih hrest
    | _ => cases h

theorem array_values_of_list (values : List Value) :
    array_values (of_list values).items = values := by
  show (values.zipIdx.map (fun p => (Key.int p.2, p.1))).map Prod.snd = values
  rw [List.map_map]
  exact List.zipIdx_map_fst 0 values

/-! ## Keys

The keys of an array are distinct. Here that is an invariant to be kept, since an array is a list.
-/

def keys (items : Items) : List Key := items.map Prod.fst

theorem keys_put (items : Items) (key : Key) (value : Value) :
    keys (put items key value) = if (get items key).isSome then keys items else keys items ++ [key] := by
  unfold put keys
  split
  · rw [List.map_map]
    refine List.map_congr_left (fun item _ => ?_)
    show (if item.1 = key then (key, value) else item).1 = item.1
    split
    · rename_i h
      exact h.symm
    · rfl
  · rw [List.map_append]
    rfl

theorem nodup_put {items : Items} (h : (keys items).Nodup) (key : Key) (value : Value) :
    (keys (put items key value)).Nodup := by
  rw [keys_put]
  split
  · exact h
  · rename_i hnone
    rw [get_isSome] at hnone
    exact List.nodup_append.mpr ⟨h, List.nodup_singleton key, by
      rintro a ha b hb rfl
      rw [List.mem_singleton] at hb
      exact hnone (hb ▸ ha)⟩

theorem nodup_unset {items : Items} (h : (keys items).Nodup) (key : Key) :
    (keys (unset items key)).Nodup :=
  (List.filter_sublist.map Prod.fst).nodup h

theorem nodup_replace_recursive (replacement : Items) : ∀ {base : Items}, (keys base).Nodup →
    (keys (array_replace_recursive base replacement)).Nodup := by
  induction replacement with
  | nil =>
    intro base h
    rw [array_replace_recursive]
    exact h
  | cons item rest ih =>
    intro base h
    obtain ⟨key, value⟩ := item
    rw [array_replace_recursive]
    exact ih (nodup_put h key _)

/-- A key that the replacement has takes its value, merged; another keeps that of the base. -/
theorem get_replace_recursive {replacement : Items} (h : (keys replacement).Nodup) :
    ∀ (base : Items) (key : Key), get (array_replace_recursive base replacement) key =
      match get replacement key with
      | some value => some (replace_value (get base key) value)
      | none => get base key := by
  induction replacement with
  | nil =>
    intro base key
    rw [array_replace_recursive]
    rfl
  | cons item rest ih =>
    intro base key
    obtain ⟨k, value⟩ := item
    have hk : k ∉ rest.map Prod.fst := (List.nodup_cons.mp h).1
    rw [array_replace_recursive, ih (List.nodup_cons.mp h).2, get_cons]
    by_cases heq : k = key
    · subst heq
      rw [if_pos rfl, get_eq_none.mpr hk, get_put_self]
    · rw [if_neg heq, get_put_of_ne (fun h => heq h.symm)]

/-! ## JSON

Both directions between values and JSON. They are inverse to each other where the distinction PHP
does not make, between an array without entries and an object without members, does not come up.
-/

/-- A key as `json_decode` makes it of the name of a member. -/
def key_of (member : Text) : Key :=
  match member with
  | '-' :: digits =>
      if digits = to_dec (of_dec digits) ∧ 0 < of_dec digits ∧ of_dec digits ≤ 2 ^ 63 then
        .int (-(of_dec digits))
      else .str member
  | digits =>
      if digits = to_dec (of_dec digits) ∧ of_dec digits ≤ PHP_INT_MAX then .int (of_dec digits)
      else .str member

/-- The name `json_encode` writes for a key. -/
def member_of : Key → Text
  | .int n => dumps_int n
  | .str s => s

/-- The keys are 0, 1, 2 and so on, so that `json_encode` writes an array. -/
def is_list (items : Items) : Bool :=
  keys items = (List.range items.length).map (fun i : ℕ => Key.int i)

mutual

/-- The JSON value that stands for a value of PHP. -/
def to_json : Value → Json
  | .null => .null
  | .bool b => .bool b
  | .int n => .int n
  | .float x => .float x
  | .str s => .str s
  | .arr items => if is_list items then .arr (to_json_values items) else .obj (to_json_members items)

def to_json_values : Items → List Json
  | [] => []
  | (_, value) :: items => to_json value :: to_json_values items

def to_json_members : Items → List (Text × Json)
  | [] => []
  | (key, value) :: items => (member_of key, to_json value) :: to_json_members items

end

mutual

/-- The value `json_decode($json, true)` makes of a JSON value. -/
def of_json : Json → Value
  | .null => .null
  | .bool b => .bool b
  | .int n => .int n
  | .float x => .float x
  | .str s => .str s
  | .arr xs => of_list (of_json_list xs)
  | .obj members => .arr (of_json_members members)

def of_json_list : List Json → List Value
  | [] => []
  | x :: xs => of_json x :: of_json_list xs

def of_json_members : List (Text × Json) → Items
  | [] => []
  | (member, x) :: members => (key_of member, of_json x) :: of_json_members members

end

/-- A member of a plain record: a text that JSON prints as it is, or a list of such texts. -/
def PlainMember (v : Value) : Prop :=
  (∃ s, PlainText s ∧ v = .str s) ∨
    ∃ texts : List Text, (∀ s ∈ texts, PlainText s) ∧ v = of_list (texts.map Value.str)

/-- A record with named members. -/
def PlainRecord (v : Value) : Prop :=
  ∃ members : List (Text × Value), members ≠ [] ∧ (members.map Prod.fst).Nodup ∧
    (∀ m ∈ members, PlainText m.1 ∧ key_of m.1 = .str m.1 ∧ PlainMember m.2) ∧
    v = .arr (members.map (fun m => (Key.str m.1, m.2)))

/-- What the lists of the package hold: identifiers, or the records of clients. -/
def Plain (v : Value) : Prop := (∃ s, PlainText s ∧ v = .str s) ∨ PlainRecord v

/-- `json_encode($value, JSON_UNESCAPED_SLASHES)` and `json_decode($text, true)`, `none` when they
fail. What is written for a list is the text of an array. -/
structure JsonCodec where
  encode : Value → Option Text
  decode : Text → Option Value
  decodes : ∀ {values : List Value} {text : Text}, encode (of_list values) = some text →
    trim text ≠ [] ∧ ∃ items, decode text = some (.arr items)
  round_trip : ∀ {values : List Value}, (∀ v ∈ values, Plain v) →
    ∃ text, encode (of_list values) = some text ∧ decode text = some (of_list values)

/-! ### A codec -/

theorem keys_of_list (values : List Value) :
    keys (of_list values).items = (List.range values.length).map (fun i : ℕ => Key.int i) := by
  show (values.zipIdx.map (fun p => (Key.int p.2, p.1))).map Prod.fst = _
  rw [List.map_map, List.range_eq_range', ← List.zipIdx_map_snd 0 values, List.map_map]
  rfl

theorem is_list_of_list (values : List Value) : is_list (of_list values).items = true := by
  have hlength : (of_list values).items.length = values.length := by
    show (values.zipIdx.map (fun p => (Key.int p.2, p.1))).length = values.length
    rw [List.length_map, List.length_zipIdx]
  rw [is_list, keys_of_list, hlength]
  exact decide_eq_true rfl

/-- A record is no list. -/
theorem is_list_record (s : Text) (v : Value) (items : Items) :
    is_list ((.str s, v) :: items) = false := by
  refine decide_eq_false (fun h => ?_)
  rw [keys, List.map_cons, List.length_cons, List.range_succ_eq_map, List.map_cons] at h
  cases (List.cons.inj h).1

theorem to_json_values_eq (items : Items) :
    to_json_values items = (array_values items).map to_json := by
  induction items with
  | nil => rfl
  | cons item items ih =>
    obtain ⟨key, value⟩ := item
    rw [to_json_values, ih]
    rfl

theorem to_json_of_list (values : List Value) :
    to_json (of_list values) = .arr (values.map to_json) := by
  have hlist := is_list_of_list values
  have hvalues := array_values_of_list values
  obtain ⟨items, hitems⟩ : ∃ items, of_list values = .arr items := ⟨_, rfl⟩
  rw [hitems] at hlist hvalues ⊢
  replace hlist : is_list items = true := hlist
  replace hvalues : array_values items = values := hvalues
  rw [to_json, if_pos hlist, to_json_values_eq, hvalues]

theorem of_json_list_eq (xs : List Json) : of_json_list xs = xs.map of_json := by
  induction xs with
  | nil => rfl
  | cons x xs ih => rw [of_json_list, ih, List.map_cons]

theorem wireList_iff {xs : List Json} : WireList xs ↔ ∀ x ∈ xs, Wire x := by
  induction xs with
  | nil => simp [WireList]
  | cons x xs ih => rw [WireList, ih, List.forall_mem_cons]

theorem nesting_list_le {xs : List Json} {n : ℕ} (h : ∀ x ∈ xs, nesting x ≤ n) :
    nesting_list xs ≤ n := by
  induction xs with
  | nil => exact Nat.zero_le n
  | cons x xs ih =>
    rw [List.forall_mem_cons] at h
    rw [nesting_list]
    exact Nat.max_le.mpr ⟨h.1, ih h.2⟩

/-- A value that JSON reproduces, with the depth of its text. -/
structure Reproduced (n : ℕ) (v : Value) : Prop where
  wire : Wire (to_json v)
  nesting : nesting (to_json v) ≤ n
  back : of_json (to_json v) = v

theorem Reproduced.mono {n m : ℕ} {v : Value} (h : Reproduced n v) (hle : n ≤ m) : Reproduced m v :=
  ⟨h.wire, h.nesting.trans hle, h.back⟩

theorem reproduced_str {s : Text} (h : PlainText s) : Reproduced 0 (.str s) :=
  ⟨h, Nat.le_refl 0, rfl⟩

theorem reproduced_list {n : ℕ} {values : List Value} (h : ∀ v ∈ values, Reproduced n v) :
    Reproduced (n + 1) (of_list values) := by
  have hjson := to_json_of_list values
  refine ⟨?_, ?_, ?_⟩
  · rw [hjson]
    refine wireList_iff.mpr (fun x hx => ?_)
    obtain ⟨v, hv, rfl⟩ := List.mem_map.mp hx
    exact (h v hv).wire
  · rw [hjson, nesting]
    refine Nat.succ_le_succ (nesting_list_le (fun x hx => ?_))
    obtain ⟨v, hv, rfl⟩ := List.mem_map.mp hx
    exact (h v hv).nesting
  · rw [hjson, of_json, of_json_list_eq, List.map_map]
    congr 1
    conv_rhs => rw [← List.map_id values]
    exact List.map_congr_left (fun v hv => (h v hv).back)

theorem to_json_members_eq (members : List (Text × Value)) :
    to_json_members (members.map (fun m => (Key.str m.1, m.2))) =
      members.map (fun m => (m.1, to_json m.2)) := by
  induction members with
  | nil => rfl
  | cons m members ih =>
    rw [List.map_cons, to_json_members, ih]
    rfl

theorem of_json_members_eq (members : List (Text × Json)) :
    of_json_members members = members.map (fun m => (key_of m.1, of_json m.2)) := by
  induction members with
  | nil => rfl
  | cons m members ih =>
    obtain ⟨member, x⟩ := m
    rw [of_json_members, ih]
    rfl

theorem wireItems_iff {members : List (Text × Json)} :
    WireItems members ↔ ∀ m ∈ members, PlainText m.1 ∧ Wire m.2 := by
  induction members with
  | nil => simp [WireItems]
  | cons m members ih =>
    obtain ⟨member, x⟩ := m
    rw [WireItems, ih, List.forall_mem_cons, and_assoc]

theorem nesting_items_le {members : List (Text × Json)} {n : ℕ}
    (h : ∀ m ∈ members, nesting m.2 ≤ n) : nesting_items members ≤ n := by
  induction members with
  | nil => exact Nat.zero_le n
  | cons m members ih =>
    obtain ⟨member, x⟩ := m
    rw [List.forall_mem_cons] at h
    rw [nesting_items]
    exact Nat.max_le.mpr ⟨h.1, ih h.2⟩

/-- A record with names is no list, so it is written as an object. -/
theorem to_json_record {members : List (Text × Value)} (hne : members ≠ []) :
    to_json (.arr (members.map (fun m => (Key.str m.1, m.2)))) =
      .obj (members.map (fun m => (m.1, to_json m.2))) := by
  have hlist : is_list (members.map (fun m => (Key.str m.1, m.2))) = false := by
    obtain ⟨m, rest, rfl⟩ := List.exists_cons_of_ne_nil hne
    refine decide_eq_false (fun h => ?_)
    rw [keys, List.map_cons, List.map_cons, List.length_cons, List.range_succ_eq_map,
      List.map_cons] at h
    cases (List.cons.inj h).1
  rw [to_json, hlist, if_neg Bool.false_ne_true, to_json_members_eq]

theorem reproduced_record {n : ℕ} {members : List (Text × Value)} (hne : members ≠ [])
    (hnodup : (members.map Prod.fst).Nodup)
    (h : ∀ m ∈ members, PlainText m.1 ∧ key_of m.1 = .str m.1 ∧ Reproduced n m.2) :
    Reproduced (n + 1) (.arr (members.map (fun m => (Key.str m.1, m.2)))) := by
  have hjson := to_json_record hne
  refine ⟨?_, ?_, ?_⟩
  · rw [hjson]
    refine ⟨?_, wireItems_iff.mpr (fun m hm => ?_)⟩
    · rw [List.map_map]
      exact hnodup
    · obtain ⟨m, hmem, rfl⟩ := List.mem_map.mp hm
      exact ⟨(h m hmem).1, (h m hmem).2.2.wire⟩
  · rw [hjson, nesting]
    refine Nat.succ_le_succ (nesting_items_le (fun m hm => ?_))
    obtain ⟨m, hmem, rfl⟩ := List.mem_map.mp hm
    exact (h m hmem).2.2.nesting
  · rw [hjson, of_json, of_json_members_eq, List.map_map]
    refine congrArg Value.arr (List.map_congr_left (fun m hm => ?_))
    obtain ⟨-, hkey, hvalue⟩ := h m hm
    show (key_of m.1, of_json (to_json m.2)) = (Key.str m.1, m.2)
    rw [hkey, hvalue.back]

theorem reproduced_plain {v : Value} (h : Plain v) : Reproduced 2 v := by
  rcases h with ⟨s, hs, rfl⟩ | ⟨members, hne, hnodup, hmembers, rfl⟩
  · exact (reproduced_str hs).mono (Nat.zero_le 2)
  · refine reproduced_record hne hnodup (fun m hm => ?_)
    obtain ⟨hname, hkey, hmember⟩ := hmembers m hm
    refine ⟨hname, hkey, ?_⟩
    rcases hmember with ⟨s, hs, heq⟩ | ⟨texts, htexts, heq⟩
    · rw [heq]
      exact (reproduced_str hs).mono (Nat.zero_le 1)
    · rw [heq]
      refine reproduced_list (fun v hv => ?_)
      obtain ⟨s, hs, rfl⟩ := List.mem_map.mp hv
      exact reproduced_str (htexts s hs)

/-- The decoder of `json_decode`, as far as texts of plain values need it. -/
def plain_decoder (floats : FloatText) : Decoder Unit where
  object_pairs_hook := fun members => .ok (.obj members)
  parse_constant := fun _ => .error ()
  parse_float := floats.parse
  max_depth := 512
  decode_error := ()
  digits_error := ()
  depth_error := ()

theorem trim_ne_nil {s : Text} {c : Char} (hc : c ∈ s) (hprinted : is_trimmed c = false) :
    trim s ≠ [] := by
  have hdrop : c ∈ s.dropWhile is_trimmed := by
    rw [← List.takeWhile_append_dropWhile (p := is_trimmed) (l := s), List.mem_append] at hc
    refine hc.resolve_left (fun htake => ?_)
    rw [List.mem_takeWhile_imp htake] at hprinted
    cases hprinted
  intro hnil
  rw [List.rdropWhile_eq_nil_iff.mp hnil c hdrop] at hprinted
  cases hprinted

def plain_decode (floats : FloatText) (text : Text) : Option Value :=
  match loads (plain_decoder floats) text with
  | .ok x => some (of_json x)
  | .error _ => none

/-- The texts `PyJson` prints and reads. -/
def plain_codec (floats : FloatText) : JsonCodec where
  encode := fun value =>
    let text := dumps floats (to_json value)
    if trim text ≠ [] ∧ ((plain_decode floats text).map Value.is_array).getD false then some text
    else none
  decode := plain_decode floats
  decodes := by
    intro values text h
    dsimp only at h
    split at h
    · rename_i hboth
      cases h
      obtain ⟨hne, harray⟩ := hboth
      refine ⟨hne, ?_⟩
      cases hdecode : plain_decode floats (dumps floats (to_json (of_list values))) with
      | none =>
        rw [hdecode] at harray
        cases harray
      | some value =>
        rw [hdecode] at harray
        cases value with
        | arr items => exact ⟨items, rfl⟩
        | _ => cases harray
    · cases h
  round_trip := by
    intro values h
    have hrep : Reproduced 3 (of_list values) :=
      reproduced_list (fun v hv => reproduced_plain (h v hv))
    have hblank : trim (dumps floats (to_json (of_list values))) ≠ [] := by
      have hjson := to_json_of_list values
      rw [hjson, dumps]
      exact trim_ne_nil List.mem_cons_self (by decide)
    have hdecode : plain_decode floats (dumps floats (to_json (of_list values))) =
        some (of_list values) := by
      have hload := loads_dumps (plain_decoder floats) floats (fun _ _ => rfl) hrep.wire
        (hrep.nesting.trans (show 3 ≤ 512 by decide))
      rw [plain_decode, hload]
      dsimp only
      rw [hrep.back]
    refine ⟨dumps floats (to_json (of_list values)), if_pos ⟨hblank, ?_⟩, hdecode⟩
    rw [hdecode]
    rfl

/-! ## Casts and paths

The functions that are not the package's own and whose code is not at hand. What is not said of
them in a law is not used. -/

/-- `/^[0-9]+$/` -/
def digits_re : Text → Bool := at_end (fun s => s.all is_digit && s ≠ [])

/-- What the package calls of PHP and of pfSense. -/
structure Library extends JsonCodec where
  /-- what is printed for a double -/
  of_float : PyFloat → Text
  /-- the integer that is read at the start of a text -/
  strtol : Text → ℤ
  strtol_digits : ∀ {s : Text}, digits_re s → strtol s = intval s
  strtol_nil : strtol [] = 0
  /-- `array_get_path($array, $path, $default)`; `config_get_path` is the same over the
  configuration -/
  array_get_path : Value → List Key → Value → Value
  get_missing : ∀ {value : Value} {path : List Key}, value_at value path = none →
    ∀ default, array_get_path value path default = default
  get_found : ∀ {value v : Value} {path : List Key}, value_at value path = some v → v ≠ .str [] →
    ∀ default, array_get_path value path default = v
  get_empty : ∀ {value default : Value} {path : List Key}, value_at value path = some (.str []) →
    default ≠ .null → array_get_path value path default = default
  get_null : ∀ {value v : Value} {path : List Key}, value_at value path = some v →
    array_get_path value path .null = v
  /-- the configuration after `config_set_path($path, $value)` -/
  config_set_path : Value → List Key → Value → Value
  set_found : ∀ {root : Value} {path : List Key}, Unblocked root path →
    ∀ value, value_at (config_set_path root path value) path = some value

namespace Library

variable (php : Library)

/-- What is read depends on the value the path leads to and on nothing else. -/
theorem get_congr {value value' : Value} {path path' : List Key}
    (h : value_at value path = value_at value' path') (default : Value) :
    php.array_get_path value path default = php.array_get_path value' path' default := by
  cases hfound : value_at value' path' with
  | none =>
    rw [hfound] at h
    rw [php.get_missing h, php.get_missing hfound]
  | some v =>
    rw [hfound] at h
    by_cases hempty : v = .str []
    · subst hempty
      by_cases hnull : default = .null
      · rw [hnull, php.get_null h, php.get_null hfound]
      · rw [php.get_empty h hnull, php.get_empty hfound hnull]
    · rw [php.get_found h hempty, php.get_found hfound hempty]

/-- An entry of an array that is not the empty text. -/
theorem get_entry {items : Items} {key : Key} {v : Value} (h : get items key = some v)
    (hne : v ≠ .str []) (default : Value) : php.array_get_path (.arr items) [key] default = v :=
  php.get_found (by rw [value_at, h]; rfl) hne default

/-- With a default that is the empty text, or none, an entry is read as it is. -/
theorem get_entry_text {items : Items} {key : Key} {v : Value} (h : get items key = some v) :
    php.array_get_path (.arr items) [key] (.str []) = v := by
  have hfound : value_at (.arr items) [key] = some v := by
    rw [value_at, h]
    rfl
  by_cases hne : v = .str []
  · rw [hne] at hfound ⊢
    exact php.get_empty hfound (fun h => (by cases h))
  · exact php.get_found hfound hne _

theorem get_entry_none {items : Items} {key : Key} (h : get items key = none) (default : Value) :
    php.array_get_path (.arr items) [key] default = default :=
  php.get_missing (by rw [value_at, h]; rfl) default

end Library

/-! ### A library -/

def is_blank : Value → Bool
  | .str s => s = []
  | _ => false

def is_null : Value → Bool
  | .null => true
  | _ => false

def sample_get_path (value : Value) (path : List Key) (default : Value) : Value :=
  match value_at value path with
  | none => default
  | some v => if is_blank v && !is_null default then default else v

theorem is_blank_iff {v : Value} : is_blank v = true ↔ v = .str [] := by
  cases v with
  | str s => simp [is_blank]
  | _ => simp [is_blank]

theorem is_null_iff {v : Value} : is_null v = true ↔ v = .null := by
  cases v <;> simp [is_null]

/-- What stands in the way of the path becomes an array. -/
def sample_set_path : Value → List Key → Value → Value
  | _, [], value => value
  | root, key :: path, value =>
      .arr (put root.items key (sample_set_path ((get root.items key).getD .null) path value))

theorem sample_set_found (root : Value) (path : List Key) (value : Value) :
    value_at (sample_set_path root path value) path = some value := by
  induction path generalizing root with
  | nil => rw [sample_set_path, value_at]
  | cons key path ih =>
    rw [sample_set_path, value_at, get_put_self]
    exact ih _

def sample_library : Library where
  toJsonCodec := plain_codec ⟨fun _ => [], fun _ => .nan⟩
  of_float := fun _ => []
  strtol := fun s => intval s
  strtol_digits := fun _ => rfl
  strtol_nil := rfl
  array_get_path := sample_get_path
  get_missing := by
    intro value path h default
    simp only [sample_get_path, h]
  get_found := by
    intro value v path h hne default
    have hblank : is_blank v = false := by rw [← Bool.not_eq_true, is_blank_iff]; exact hne
    simp only [sample_get_path, h, hblank, Bool.false_and, Bool.false_eq_true, if_false]
  get_empty := by
    intro value default path h hne
    have hblank : is_blank (.str []) = true := is_blank_iff.mpr rfl
    have hnull : is_null default = false := by rw [← Bool.not_eq_true, is_null_iff]; exact hne
    simp only [sample_get_path, h, hblank, hnull, Bool.not_false, Bool.and_self, if_true]
  get_null := by
    intro value v path h
    have hnull : is_null .null = true := rfl
    simp only [sample_get_path, h, hnull, Bool.not_true, Bool.and_false, Bool.false_eq_true, if_false]
  config_set_path := sample_set_path
  set_found := fun _ value => sample_set_found _ _ value

end F2bguard.Php
