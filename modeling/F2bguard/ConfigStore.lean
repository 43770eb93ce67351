/-
The package's configuration in pfSense: how it is read, edited by a page and stored.

`f2bguard_get_config` merges what is stored over the defaults, decodes the three lists from
their JSON fields and reports a list that is malformed in the entry `_config_error`. A page
edits the result and hands it to `f2bguard_store_config`, which writes the lists back to
their fields and keeps every other entry, `_config_error` included. The lists and the enabled
flag therefore come back as they were stored (`saved_config_iff`), but an error that was
reported once stays in the configuration.

The functions of PHP and of pfSense that are called on the way are those of a `Library`, with no
more about them than its laws say. Where a text stands on the path of the package's configuration
they say nothing about a write, so the result on saves starts from a configuration that is
`Unblocked` there.
-/
import F2bguard.PhpValue

set_option autoImplicit false

namespace F2bguard.ConfigStore

open F2bguard.PyText F2bguard.PyJson F2bguard.Php

/-! ## Reading

What is stored may be of any layout the package ever wrote, and of any type. Reading never fails:
a field that cannot be decoded gives the empty list, and the error goes to the result as an entry.
-/

def default_tls : Items := [(name "cert", .str []), (name "key", .str []), (name "ca", .str [])]

def default_limits : Items := [
  (name "body_bytes", .int 1048576), (name "events_per_request", .int 1000),
  (name "claims_per_client", .int 10000), (name "requests_per_minute", .int 120)]

/-- `f2bguard_default_config` -/
def default_config : Items := [
  (name "enabled", .bool false),
  (name "listen", .str "127.0.0.1".toList),
  (name "port", .int 9443),
  (name "tls", .arr default_tls),
  (name "clients", .arr []),
  (name "database", .str "/var/db/f2bguard/state.sqlite".toList),
  (name "whitelist_file", .str "/usr/local/etc/f2bguard/whitelist.txt".toList),
  (name "enforcement_socket", .str "/var/run/f2bguard/pf.sock".toList),
  (name "limits", .arr default_limits),
  (name "history_days", .int 90)]

/-- `f2bguard_normalize_enabled`. A text counts when it is one of four words. -/
def normalize_enabled : Value → Bool
  | .bool b => b
  | .int n => n ≠ 0
  | .float x => dval_to_lval x ≠ 0
  | .str s => strtolower (trim s) ∈ ["1".toList, "true".toList, "yes".toList, "on".toList]
  | .null => false
  | .arr _ => false

/-- `f2bguard_decode_config_list`, `none` for `false`. A field that is no text, blank, or no JSON
array or object is malformed. -/
def decode_config_list (php : Library) : Value → Option (List Value)
  | .str text =>
      if trim text = [] then none
      else
        match php.decode text with
        | some (.arr items) => some (array_values items)
        | _ => none
  | _ => none

/-- `installedpackages/f2bguard/config` -/
def config_path : List Key := [name "installedpackages", name "f2bguard", name "config"]

/-- `installedpackages/f2bguard/config/0` -/
def config_0_path : List Key := config_path ++ [.int 0]

/-- `$saved`: the entry 0, or the unindexed path of early snapshots. -/
def saved_config (php : Library) (root : Value) : Value :=
  if (php.array_get_path root config_0_path .null).is_array then php.array_get_path root config_0_path .null
  else php.array_get_path root config_path (.arr [])

/-- One of the three lists. The scalar field decides when there is one; else the entry of the old
layout, or what the package kept elsewhere. The flag tells that the field is malformed. -/
def read_list (php : Library) (saved : Value) (key : String) (elsewhere : Value) :
    Bool × List Value :=
  match get saved.items (name (key ++ "_json")) with
  | some field =>
      match decode_config_list php field with
      | some values => (false, values)
      | none => (true, [])
  | none =>
      if (php.array_get_path saved [name key] .null).is_array then
        (false, array_values (php.array_get_path saved [name key] .null).items)
      else (false, array_values elsewhere.items)

def read_clients (php : Library) (root : Value) : Bool × List Value :=
  read_list php (saved_config php root) "clients"
    (php.array_get_path root [name "installedpackages", name "f2bguard", name "clients"] (.arr []))

def read_jails (php : Library) (root : Value) : Bool × List Value :=
  read_list php (saved_config php root) "jails"
    (php.array_get_path root (config_path ++ [name "jails"]) (.arr []))

def read_wan_interfaces (php : Library) (root : Value) : Bool × List Value :=
  read_list php (saved_config php root) "wan_interfaces" (.arr [])

/-- `$config_error`: the first list that is malformed. -/
def config_error (php : Library) (root : Value) : Text :=
  if (read_clients php root).1 then
    "The stored Fail2Ban Guard client configuration is malformed.".toList
  else if (read_jails php root).1 then
    "The stored Fail2Ban Guard jail configuration is malformed.".toList
  else if (read_wan_interfaces php root).1 then
    "The stored Fail2Ban Guard interface configuration is malformed.".toList
  else []

/-- The stored entries over the defaults. A stored `_config_error` comes along like any other
entry. -/
def merged (php : Library) (root : Value) : Items :=
  match saved_config php root with
  | .arr saved => array_replace_recursive default_config saved
  | _ => default_config

/-- `f2bguard_get_config`. The lists replace whatever was merged under their names;
`_config_error` is set only when there is an error, and not removed when there is none. -/
def get_config (php : Library) (root : Value) : Items :=
  let enabled := normalize_enabled (php.array_get_path (.arr (merged php root)) [name "enabled"] (.bool false))
  let cfg := put (merged php root) (name "enabled") (.bool enabled)
  let cfg := put cfg (name "clients") (of_list (read_clients php root).2)
  let cfg := put cfg (name "jails") (of_list (read_jails php root).2)
  let cfg := put cfg (name "wan_interfaces") (of_list (read_wan_interfaces php root).2)
  if config_error php root ≠ [] then
    put cfg (name "_config_error") (.str (config_error php root))
  else cfg

/-! ## Storing

Only the three lists and the flag change their form. A list that cannot be encoded ends it before
anything is written. -/

/-- A list goes to its JSON field. -/
def store_list (php : Library) (persist : Items) (key : String) : Option Items :=
  let value := array_values (to_array (php.array_get_path (.arr persist) [name key] (.arr [])))
  (php.encode (of_list value)).map (fun encoded =>
    unset (put persist (name (key ++ "_json")) (.str encoded)) (name key))

/-- `f2bguard_config_for_storage`, `none` for `false`. All entries that are not lists are stored
as they were read. -/
def config_for_storage (php : Library) (cfg : Items) : Option Items :=
  let enabled := normalize_enabled (php.array_get_path (.arr cfg) [name "enabled"] (.bool false))
  let persist := put cfg (name "enabled") (.str (if enabled then "yes".toList else "no".toList))
  ((store_list php persist "clients").bind (fun persist => store_list php persist "jails")).bind
    (fun persist => store_list php persist "wan_interfaces")

/-- `f2bguard_store_config`; `written` is whether `write_config` succeeds. When it does not, what
was there before is set again. -/
def store_config (php : Library) (root : Value) (cfg : Items) (written : Bool) : Bool × Value :=
  let previous := php.array_get_path root config_0_path (.arr [])
  match config_for_storage php cfg with
  | none => (false, root)
  | some persist =>
      let stored := php.config_set_path root config_0_path (.arr persist)
      if written then (true, stored) else (false, php.config_set_path stored config_0_path previous)

/-! ## Editing

A page reads the configuration, replaces entries of it and stores the result. What the pages
differ in is which entries they replace. -/

/-- The entries of the general page that are neither the enabled flag nor the interfaces. -/
inductive GeneralField
  | listen
  | port
  | limits
  | history_days
  | tls_cert_ref
  | tls_ca_ref
  | whitelist_alias
  deriving DecidableEq

def GeneralField.key : GeneralField → Key
  | .listen => name "listen"
  | .port => name "port"
  | .limits => name "limits"
  | .history_days => name "history_days"
  | .tls_cert_ref => name "tls_cert_ref"
  | .tls_ca_ref => name "tls_ca_ref"
  | .whitelist_alias => name "whitelist_alias"

/-- What a page replaces in the configuration it has read. -/
structure Edit where
  general : List (GeneralField × Value) := []
  enabled : Option Bool := none
  clients : Option (List Value) := none
  jails : Option (List Value) := none
  wan_interfaces : Option (List Value) := none

def put_list (cfg : Items) (key : String) : Option (List Value) → Items
  | none => cfg
  | some values => put cfg (name key) (of_list values)

def Edit.apply (edit : Edit) (cfg : Items) : Items :=
  let cfg := edit.general.foldl (fun cfg field => put cfg field.1.key field.2) cfg
  let cfg := match edit.enabled with
    | none => cfg
    | some b => put cfg (name "enabled") (.bool b)
  let cfg := put_list cfg "clients" edit.clients
  let cfg := put_list cfg "jails" edit.jails
  put_list cfg "wan_interfaces" edit.wan_interfaces

/-- A page save: read, edit, store. -/
def save (php : Library) (root : Value) (edit : Edit) : Bool × Value :=
  store_config php root (edit.apply (get_config php root)) true

/-! ## What comes back

What a page expects of a save that succeeded: it reads what it has stored, and no error. -/

/-- `$cfg[$key] ?? null` -/
def entry (cfg : Items) (key : String) : Value := (get cfg (name key)).getD .null

/-- `empty($value)` -/
def is_empty : Value → Bool
  | .null => true
  | .bool b => !b
  | .int n => n = 0
  | .float x => x = .finite 0
  | .str s => s = [] || s = ['0']
  | .arr items => items.isEmpty

/-- The enabled flag and the three lists of the second configuration are those of the first, and
it reports no error. The other entries come back with the rest of the array. -/
structure Returns (stored next : Items) : Prop where
  enabled : entry next "enabled" = entry stored "enabled"
  clients : entry next "clients" = entry stored "clients"
  jails : entry next "jails" = entry stored "jails"
  wan_interfaces : entry next "wan_interfaces" = entry stored "wan_interfaces"
  no_error : is_empty (entry next "_config_error") = true

/-- A list that `json_decode` gives back when it reads what `json_encode` wrote for it. -/
def Stable (php : Library) (values : List Value) : Prop :=
  ∀ text, php.encode (of_list values) = some text →
    ∃ items, php.decode text = some (.arr items) ∧ array_values items = values

theorem stable_of_plain (php : Library) {values : List Value} (h : ∀ v ∈ values, Plain v) :
    Stable php values := by
  intro text htext
  obtain ⟨text', hencode, hdecode⟩ := php.round_trip h
  rw [htext] at hencode
  cases hencode
  exact ⟨_, hdecode, array_values_of_list values⟩

/-- What a configuration that was read and edited holds. -/
structure Holds (cfg : Items) (enabled : Bool) (clients jails wan_interfaces : List Value) : Prop where
  enabled : get cfg (name "enabled") = some (.bool enabled)
  clients : get cfg (name "clients") = some (of_list clients)
  jails : get cfg (name "jails") = some (of_list jails)
  wan_interfaces : get cfg (name "wan_interfaces") = some (of_list wan_interfaces)
  distinct : (keys cfg).Nodup

theorem get_config_holds (php : Library) (root : Value) (hmerged : (keys (merged php root)).Nodup) :
    Holds (get_config php root)
      (normalize_enabled (php.array_get_path (.arr (merged php root)) [name "enabled"] (.bool false)))
      (read_clients php root).2 (read_jails php root).2 (read_wan_interfaces php root).2 := by
  have hplain := nodup_put (nodup_put (nodup_put (nodup_put hmerged (name "enabled") (.bool
    (normalize_enabled (php.array_get_path (.arr (merged php root)) [name "enabled"] (.bool false)))))
    (name "clients") (of_list (read_clients php root).2)) (name "jails")
    (of_list (read_jails php root).2)) (name "wan_interfaces")
    (of_list (read_wan_interfaces php root).2)
  unfold get_config
  dsimp only
  split
  · exact ⟨by simp [get_put, name], by simp [get_put, name], by simp [get_put, name],
      by simp [get_put, name], nodup_put hplain _ _⟩
  · exact ⟨by simp [get_put, name], by simp [get_put, name], by simp [get_put, name],
      get_put_self _ _ _, hplain⟩

theorem name_ne {key other : String} (h : key ≠ other) : name key ≠ name other :=
  fun heq => h (String.toList_injective (Key.str.inj heq))

/-- Entries of different names are independent. -/
theorem get_put_name {cfg : Items} {key other : String} {value : Value} (h : key ≠ other) :
    get (put cfg (name other) value) (name key) = get cfg (name key) :=
  get_put_of_ne (name_ne h)

namespace Holds

variable {cfg : Items} {b : Bool} {clients jails wan_interfaces : List Value}

theorem put_enabled (h : Holds cfg b clients jails wan_interfaces) (new : Bool) :
    Holds (put cfg (name "enabled") (.bool new)) new clients jails wan_interfaces where
  enabled := get_put_self _ _ _
  clients := (get_put_name (by decide)).trans h.clients
  jails := (get_put_name (by decide)).trans h.jails
  wan_interfaces := (get_put_name (by decide)).trans h.wan_interfaces
  distinct := nodup_put h.distinct _ _

theorem edit_clients (h : Holds cfg b clients jails wan_interfaces) (new : Option (List Value)) :
    Holds (put_list cfg "clients" new) b (new.getD clients) jails wan_interfaces := by
  cases new with
  | none => exact h
  | some values => exact {
    enabled := (get_put_name (by decide)).trans h.enabled
    clients := get_put_self _ _ _
    jails := (get_put_name (by decide)).trans h.jails
    wan_interfaces := (get_put_name (by decide)).trans h.wan_interfaces
    distinct := nodup_put h.distinct _ _ }

theorem edit_jails (h : Holds cfg b clients jails wan_interfaces) (new : Option (List Value)) :
    Holds (put_list cfg "jails" new) b clients (new.getD jails) wan_interfaces := by
  cases new with
  | none => exact h
  | some values => exact {
    enabled := (get_put_name (by decide)).trans h.enabled
    clients := (get_put_name (by decide)).trans h.clients
    jails := get_put_self _ _ _
    wan_interfaces := (get_put_name (by decide)).trans h.wan_interfaces
    distinct := nodup_put h.distinct _ _ }

theorem edit_wan_interfaces (h : Holds cfg b clients jails wan_interfaces) (new : Option (List Value)) :
    Holds (put_list cfg "wan_interfaces" new) b clients jails (new.getD wan_interfaces) := by
  cases new with
  | none => exact h
  | some values => exact {
    enabled := (get_put_name (by decide)).trans h.enabled
    clients := (get_put_name (by decide)).trans h.clients
    jails := (get_put_name (by decide)).trans h.jails
    wan_interfaces := get_put_self _ _ _
    distinct := nodup_put h.distinct _ _ }

end Holds

/-- The entries that the general page sets are others than these. -/
theorem general_keys {key : String}
    (h : key ∈ ["enabled", "clients", "jails", "wan_interfaces", "_config_error"])
    (field : GeneralField) : name key ≠ field.key := by
  revert key
  cases field <;> decide

theorem get_general {general : List (GeneralField × Value)} {key : String}
    (h : key ∈ ["enabled", "clients", "jails", "wan_interfaces", "_config_error"]) : ∀ cfg : Items,
      get (general.foldl (fun cfg field => put cfg field.1.key field.2) cfg) (name key) =
        get cfg (name key) := by
  induction general with
  | nil => exact fun cfg => rfl
  | cons field general ih =>
    intro cfg
    rw [List.foldl_cons, ih, get_put_of_ne (general_keys h field.1)]

theorem nodup_general (general : List (GeneralField × Value)) : ∀ {cfg : Items}, (keys cfg).Nodup →
    (keys (general.foldl (fun cfg field => put cfg field.1.key field.2) cfg)).Nodup := by
  induction general with
  | nil => exact fun h => h
  | cons field general ih =>
    intro cfg h
    exact ih (nodup_put h _ _)

theorem Holds.put_general {cfg : Items} {b : Bool} {clients jails wan_interfaces : List Value}
    (h : Holds cfg b clients jails wan_interfaces) (general : List (GeneralField × Value)) :
    Holds (general.foldl (fun cfg field => put cfg field.1.key field.2) cfg) b clients jails
      wan_interfaces where
  enabled := (get_general (by decide) cfg).trans h.enabled
  clients := (get_general (by decide) cfg).trans h.clients
  jails := (get_general (by decide) cfg).trans h.jails
  wan_interfaces := (get_general (by decide) cfg).trans h.wan_interfaces
  distinct := nodup_general general h.distinct

/-- The edited configuration holds what the page replaced, and otherwise what was read. -/
theorem edit_holds {cfg : Items} {b : Bool} {clients jails wan_interfaces : List Value}
    (h : Holds cfg b clients jails wan_interfaces) (edit : Edit) :
    Holds (edit.apply cfg) (edit.enabled.getD b) (edit.clients.getD clients)
      (edit.jails.getD jails) (edit.wan_interfaces.getD wan_interfaces) := by
  obtain ⟨general, enabled, new_clients, new_jails, new_wan⟩ := edit
  have h1 := h.put_general general
  have h2 : Holds (match enabled with
      | none => general.foldl (fun cfg field => put cfg field.1.key field.2) cfg
      | some b => put (general.foldl (fun cfg field => put cfg field.1.key field.2) cfg)
          (name "enabled") (.bool b)) (enabled.getD b) clients jails wan_interfaces := by
    cases enabled with
    | none => exact h1
    | some new => exact h1.put_enabled new
  exact ((h2.edit_clients new_clients).edit_jails new_jails).edit_wan_interfaces new_wan

theorem edit_error (edit : Edit) (cfg : Items) :
    get (edit.apply cfg) (name "_config_error") = get cfg (name "_config_error") := by
  have hlist : ∀ (cfg : Items) (key : String) (values : Option (List Value)), "_config_error" ≠ key →
      get (put_list cfg key values) (name "_config_error") = get cfg (name "_config_error") := by
    intro cfg key values hne
    cases values with
    | none => rfl
    | some values => exact get_put_name hne
  unfold Edit.apply
  dsimp only
  rw [hlist _ _ _ (by decide), hlist _ _ _ (by decide), hlist _ _ _ (by decide)]
  cases edit.enabled with
  | none => exact get_general (by decide) cfg
  | some b => exact (get_put_name (by decide)).trans (get_general (by decide) cfg)

/-! ## What is stored

The fields of the stored array, from the configuration that was edited. -/

theorem json_key_ne (key : String) : name key ≠ name (key ++ "_json") := by
  intro h
  have hlength := congrArg List.length (Key.str.inj h)
  rw [String.toList_append, List.length_append] at hlength
  have hsuffix : "_json".toList.length = 5 := rfl
  omega

/-- A stored list: its text is in the JSON field. -/
theorem store_list_spec {php : Library} {cfg persist : Items} {key : String} {values : List Value}
    (hvalues : get cfg (name key) = some (of_list values))
    (h : store_list php cfg key = some persist) :
    ∃ text, php.encode (of_list values) = some text ∧
      get persist (name (key ++ "_json")) = some (.str text) ∧
      (∀ other : String, other ≠ key → other ≠ key ++ "_json" →
        get persist (name other) = get cfg (name other)) ∧
      ((keys cfg).Nodup → (keys persist).Nodup) := by
  have hentry : php.array_get_path (.arr cfg) [name key] (.arr []) = of_list values :=
    php.get_entry hvalues (fun h => (by cases h)) _
  have harray : array_values (to_array (of_list values)) = values := array_values_of_list values
  unfold store_list at h
  rw [hentry] at h
  dsimp only at h
  rw [harray] at h
  obtain ⟨text, htext, rfl⟩ := Option.map_eq_some_iff.mp h
  refine ⟨text, htext, ?_, ?_, ?_⟩
  · rw [get_unset, if_neg (fun h => json_key_ne key h.symm), get_put_self]
  · intro other hkey hjson
    rw [get_unset, if_neg (name_ne hkey), get_put_name hjson]
  · exact fun hnodup => nodup_unset (nodup_put hnodup _ _) _

/-- What the stored entries say. -/
structure Persisted (php : Library) (cfg : Items) (b : Bool)
    (clients jails wan_interfaces : List Value) (persist : Items) : Prop where
  enabled : get persist (name "enabled") = some (.str (if b then "yes".toList else "no".toList))
  clients : ∃ text, php.encode (of_list clients) = some text ∧
    get persist (name ("clients" ++ "_json")) = some (.str text)
  jails : ∃ text, php.encode (of_list jails) = some text ∧
    get persist (name ("jails" ++ "_json")) = some (.str text)
  wan_interfaces : ∃ text, php.encode (of_list wan_interfaces) = some text ∧
    get persist (name ("wan_interfaces" ++ "_json")) = some (.str text)
  error : get persist (name "_config_error") = get cfg (name "_config_error")
  distinct : (keys persist).Nodup

theorem config_for_storage_spec {php : Library} {cfg persist : Items} {b : Bool}
    {clients jails wan_interfaces : List Value} (hcfg : Holds cfg b clients jails wan_interfaces)
    (h : config_for_storage php cfg = some persist) :
    Persisted php cfg b clients jails wan_interfaces persist := by
  have hb : normalize_enabled (php.array_get_path (.arr cfg) [name "enabled"] (.bool false)) = b := by
    rw [php.get_entry hcfg.enabled (fun h => (by cases h))]
    rfl
  unfold config_for_storage at h
  rw [hb] at h
  dsimp only at h
  obtain ⟨persist2, h2, h3⟩ := Option.bind_eq_some_iff.mp h
  obtain ⟨persist1, h1, h2⟩ := Option.bind_eq_some_iff.mp h2
  have hput : ∀ {key : String}, key ≠ "enabled" →
      get (put cfg (name "enabled") (.str (if b then "yes".toList else "no".toList))) (name key) =
        get cfg (name key) := fun hne => get_put_name hne
  -- each list goes to its field, and the steps leave the fields of the others alone
  obtain ⟨t1, ht1, hget1, hrest1, hnodup1⟩ := store_list_spec
    ((hput (by decide)).trans hcfg.clients) h1
  obtain ⟨t2, ht2, hget2, hrest2, hnodup2⟩ := store_list_spec
    ((hrest1 "jails" (by decide) (by decide)).trans ((hput (by decide)).trans hcfg.jails)) h2
  obtain ⟨t3, ht3, hget3, hrest3, hnodup3⟩ := store_list_spec
    ((hrest2 "wan_interfaces" (by decide) (by decide)).trans
      ((hrest1 "wan_interfaces" (by decide) (by decide)).trans
        ((hput (by decide)).trans hcfg.wan_interfaces))) h3
  refine ⟨?_, ⟨t1, ht1, ?_⟩, ⟨t2, ht2, ?_⟩, ⟨t3, ht3, hget3⟩, ?_, ?_⟩
  · rw [hrest3 _ (by decide) (by decide), hrest2 _ (by decide) (by decide),
      hrest1 _ (by decide) (by decide), get_put_self]
  · rw [hrest3 _ (by decide) (by decide), hrest2 _ (by decide) (by decide)]
    exact hget1
  · rw [hrest3 _ (by decide) (by decide)]
    exact hget2
  · rw [hrest3 _ (by decide) (by decide), hrest2 _ (by decide) (by decide),
      hrest1 _ (by decide) (by decide), hput (by decide)]
  · exact hnodup3 (hnodup2 (hnodup1 (nodup_put hcfg.distinct _ _)))

/-! ## What is read next

The fields are decoded again, and what the codec promises for plain lists makes them the lists
that were stored. -/

theorem is_array_arr (items : Items) : (Value.arr items).is_array = true := rfl

theorem saved_config_stored (php : Library) {root : Value} (hroot : Unblocked root config_0_path)
    (persist : Items) :
    saved_config php (php.config_set_path root config_0_path (.arr persist)) = .arr persist := by
  rw [saved_config, php.get_null (php.set_found hroot _), is_array_arr, if_pos rfl]

/-- A stored list is read from its field: the array its text stands for. -/
theorem read_list_stored {php : Library} {persist : Items} {key : String} {values : List Value}
    {text : Text} (hencode : php.encode (of_list values) = some text)
    (hget : get persist (name (key ++ "_json")) = some (.str text)) (elsewhere : Value) :
    (read_list php (.arr persist) key elsewhere).1 = false ∧
      ((read_list php (.arr persist) key elsewhere).2 = values ↔ Stable php values) := by
  obtain ⟨hblank, items, hdecode⟩ := php.decodes hencode
  -- the stored text is not blank and decodes to an array
  have hlist : decode_config_list php (.str text) = some (array_values items) := by
    rw [decode_config_list, if_neg hblank, hdecode]
  have hread : read_list php (.arr persist) key elsewhere = (false, array_values items) := by
    show (match get persist (name (key ++ "_json")) with
      | some field => _
      | none => _) = _
    rw [hget]
    dsimp only
    rw [hlist]
  rw [hread]
  refine ⟨rfl, ?_⟩
  constructor
  · intro heq text' htext'
    rw [hencode] at htext'
    cases htext'
    exact ⟨items, hdecode, heq⟩
  · intro hstable
    obtain ⟨items', hdecode', heq⟩ := hstable text hencode
    rw [hdecode] at hdecode'
    cases hdecode'
    exact heq

theorem of_list_injective {values values' : List Value} (h : of_list values = of_list values') :
    values = values' := by
  rw [← array_values_of_list values, h, array_values_of_list]

theorem default_get_enabled : get default_config (name "enabled") = some (.bool false) := by
  rw [default_config, get_cons, if_pos rfl]

theorem default_get_error : get default_config (name "_config_error") = none := by
  decide

theorem replace_value_none (value : Value) : replace_value none value = value := by
  cases value <;> rfl

/-- The error entry of the stored configuration shows when no list is malformed. -/
theorem get_config_error {php : Library} {root : Value} (h : config_error php root = []) :
    get (get_config php root) (name "_config_error") = get (merged php root) (name "_config_error") := by
  unfold get_config
  dsimp only
  rw [if_neg (not_not.mpr h), get_put_name (by decide), get_put_name (by decide),
    get_put_name (by decide), get_put_name (by decide)]

theorem merged_error {php : Library} {root : Value} {saved : Items}
    (hsaved : saved_config php root = .arr saved) (hdistinct : (keys saved).Nodup) :
    get (merged php root) (name "_config_error") = get saved (name "_config_error") := by
  rw [merged, hsaved]
  dsimp only
  rw [get_replace_recursive hdistinct, default_get_error]
  cases get saved (name "_config_error") with
  | none => rfl
  | some value => exact congrArg some (replace_value_none value)

theorem default_distinct : (keys default_config).Nodup := by
  decide

theorem merged_distinct (php : Library) (root : Value) : (keys (merged php root)).Nodup := by
  unfold merged
  split
  · exact nodup_replace_recursive _ default_distinct
  · exact default_distinct

theorem config_error_eq_nil {php : Library} {root : Value} :
    config_error php root = [] ↔ (read_clients php root).1 = false ∧
      (read_jails php root).1 = false ∧ (read_wan_interfaces php root).1 = false := by
  unfold config_error
  cases (read_clients php root).1 with
  | true =>
    rw [if_pos rfl]
    exact iff_of_false (by decide) (fun h => Bool.false_ne_true h.1.symm)
  | false =>
    cases (read_jails php root).1 with
    | true =>
      rw [if_neg Bool.false_ne_true, if_pos rfl]
      exact iff_of_false (by decide) (fun h => Bool.false_ne_true h.2.1.symm)
    | false =>
      cases (read_wan_interfaces php root).1 with
      | true =>
        rw [if_neg Bool.false_ne_true, if_neg Bool.false_ne_true, if_pos rfl]
        exact iff_of_false (by decide) (fun h => Bool.false_ne_true h.2.2.symm)
      | false => exact iff_of_true rfl ⟨rfl, rfl, rfl⟩

/-- The next configuration after a save: the flag as it was stored, the lists as their texts are
read, and the error entry that was stored. -/
theorem get_config_stored {php : Library} {root : Value} {cfg persist : Items} {b : Bool}
    {clients jails wan_interfaces : List Value} (hroot : Unblocked root config_0_path)
    (h : Persisted php cfg b clients jails wan_interfaces persist) :
    ∃ clients' jails' wan_interfaces',
      Holds (get_config php (php.config_set_path root config_0_path (.arr persist))) b clients' jails'
        wan_interfaces' ∧
      (clients' = clients ↔ Stable php clients) ∧ (jails' = jails ↔ Stable php jails) ∧
      (wan_interfaces' = wan_interfaces ↔ Stable php wan_interfaces) ∧
      get (get_config php (php.config_set_path root config_0_path (.arr persist))) (name "_config_error") =
        get cfg (name "_config_error") := by
  obtain ⟨henabled, ⟨t1, ht1, hget1⟩, ⟨t2, ht2, hget2⟩, ⟨t3, ht3, hget3⟩, herror, hdistinct⟩ := h
  have hsaved := saved_config_stored php hroot persist
  generalize php.config_set_path root config_0_path (.arr persist) = root' at hsaved ⊢
  have hclients : (read_clients php root').1 = false ∧
      ((read_clients php root').2 = clients ↔ Stable php clients) := by
    rw [read_clients, hsaved]
    exact read_list_stored ht1 hget1 _
  have hjails : (read_jails php root').1 = false ∧
      ((read_jails php root').2 = jails ↔ Stable php jails) := by
    rw [read_jails, hsaved]
    exact read_list_stored ht2 hget2 _
  have hwan : (read_wan_interfaces php root').1 = false ∧
      ((read_wan_interfaces php root').2 = wan_interfaces ↔ Stable php wan_interfaces) := by
    rw [read_wan_interfaces, hsaved]
    exact read_list_stored ht3 hget3 _
  -- no list is malformed, so no error is added
  have hnone := config_error_eq_nil.mpr ⟨hclients.1, hjails.1, hwan.1⟩
  -- the flag was stored as `yes` or `no`
  have hflag : normalize_enabled (php.array_get_path (.arr (merged php root')) [name "enabled"]
      (.bool false)) = b := by
    have hget : get (merged php root') (name "enabled") =
        some (.str (if b then "yes".toList else "no".toList)) := by
      rw [merged, hsaved]
      dsimp only
      rw [get_replace_recursive hdistinct, henabled, default_get_enabled]
      dsimp only
      rw [replace_value]
    rw [php.get_entry hget (by cases b <;> exact fun h => (by cases h))]
    cases b <;> decide
  have hholds := get_config_holds php root' (merged_distinct php root')
  rw [hflag] at hholds
  exact ⟨_, _, _, hholds, hclients.2, hjails.2, hwan.2,
    (get_config_error hnone).trans ((merged_error hsaved hdistinct).trans herror)⟩

/-- A save that succeeded stored what the edited configuration holds. -/
theorem save_eq_true {php : Library} {root root' : Value} {edit : Edit}
    (h : save php root edit = (true, root')) :
    ∃ persist, config_for_storage php (edit.apply (get_config php root)) = some persist ∧
      root' = php.config_set_path root config_0_path (.arr persist) := by
  unfold save store_config at h
  cases hpersist : config_for_storage php (edit.apply (get_config php root)) with
  | none =>
    rw [hpersist] at h
    cases h
  | some persist =>
    rw [hpersist] at h
    dsimp only at h
    rw [if_pos rfl] at h
    exact ⟨persist, rfl, (Prod.mk.inj h).2.symm⟩

theorem Holds.entries {cfg : Items} {b : Bool} {clients jails wan_interfaces : List Value}
    (h : Holds cfg b clients jails wan_interfaces) :
    entry cfg "enabled" = .bool b ∧ entry cfg "clients" = of_list clients ∧
      entry cfg "jails" = of_list jails ∧ entry cfg "wan_interfaces" = of_list wan_interfaces := by
  rw [entry, entry, entry, entry, h.enabled, h.clients, h.jails, h.wan_interfaces]
  exact ⟨rfl, rfl, rfl, rfl⟩

/-- The lists a configuration holds are such that JSON reproduces them. -/
def StableLists (php : Library) (cfg : Items) : Prop :=
  ∀ key ∈ ["clients", "jails", "wan_interfaces"], ∀ values,
    entry cfg key = of_list values → Stable php values

theorem Holds.stableLists {php : Library} {cfg : Items} {b : Bool}
    {clients jails wan_interfaces : List Value} (h : Holds cfg b clients jails wan_interfaces) :
    StableLists php cfg ↔ Stable php clients ∧ Stable php jails ∧ Stable php wan_interfaces := by
  obtain ⟨-, hclients, hjails, hwan⟩ := h.entries
  rw [StableLists, List.forall_mem_cons, List.forall_mem_cons, List.forall_mem_singleton, hclients,
    hjails, hwan]
  have heach : ∀ values : List Value,
      (∀ values', of_list values = of_list values' → Stable php values') ↔ Stable php values :=
    fun values => ⟨fun h => h values rfl, fun h values' heq => of_list_injective heq ▸ h⟩
  rw [heach, heach, heach]

/-- One save: what was stored comes back, without an error, when no error was read before it and
JSON reproduces the lists. The error entry does not change. -/
theorem save_returns_iff {php : Library} {root root' : Value} {edit : Edit}
    (hroot : Unblocked root config_0_path) (h : save php root edit = (true, root')) :
    (Returns (edit.apply (get_config php root)) (get_config php root') ↔
      is_empty (entry (get_config php root) "_config_error") = true ∧
        StableLists php (edit.apply (get_config php root))) ∧
    entry (get_config php root') "_config_error" = entry (get_config php root) "_config_error" := by
  obtain ⟨persist, hpersist, rfl⟩ := save_eq_true h
  have hcfg := edit_holds (get_config_holds php root (merged_distinct php root)) edit
  have herror := edit_error edit (get_config php root)
  generalize edit.apply (get_config php root) = cfg at hpersist hcfg herror ⊢
  obtain ⟨clients', jails', wan', hnext, hclients, hjails, hwan, hentry⟩ :=
    get_config_stored hroot (config_for_storage_spec hcfg hpersist)
  -- neither the edit nor the storing touches the error
  have hsame : entry (get_config php (php.config_set_path root config_0_path (.arr persist))) "_config_error" =
      entry (get_config php root) "_config_error" := by
    rw [entry, entry, hentry, herror]
  refine ⟨?_, hsame⟩
  obtain ⟨henabled1, hclients1, hjails1, hwan1⟩ := hcfg.entries
  obtain ⟨henabled2, hclients2, hjails2, hwan2⟩ := hnext.entries
  rw [hcfg.stableLists]
  constructor
  · rintro ⟨-, h2, h3, h4, h5⟩
    rw [hsame] at h5
    rw [hclients1, hclients2] at h2
    rw [hjails1, hjails2] at h3
    rw [hwan1, hwan2] at h4
    exact ⟨h5, hclients.mp (of_list_injective h2), hjails.mp (of_list_injective h3),
      hwan.mp (of_list_injective h4)⟩
  · rintro ⟨h5, h2, h3, h4⟩
    refine ⟨henabled2.trans henabled1.symm, ?_, ?_, ?_, ?_⟩
    · rw [hclients1, hclients2, hclients.mpr h2]
    · rw [hjails1, hjails2, hjails.mpr h3]
    · rw [hwan1, hwan2, hwan.mpr h4]
    · rw [hsame]
      exact h5

/-! ## Any number of saves

Whether an error is reported is decided by the configuration before the first save, and every save
keeps it. -/

/-- The configuration of pfSense. The keys of the stored array are distinct, as those of every
array. -/
structure StoredConfig (php : Library) where
  root : Value
  distinct : (keys (saved_config php root).items).Nodup

/-- No field of a list is malformed, and no error was stored. -/
structure Healthy (php : Library) (root : Value) : Prop where
  lists : ∀ key ∈ ["clients", "jails", "wan_interfaces"], ∀ field,
    get (saved_config php root).items (name (key ++ "_json")) = some field →
      (decode_config_list php field).isSome
  no_error : is_empty (entry (saved_config php root).items "_config_error") = true

/-- Saves one after the other, `none` when one of them fails. -/
def run (php : Library) : Value → List Edit → Option Value
  | root, [] => some root
  | root, edit :: edits =>
      match save php root edit with
      | (true, root) => run php root edits
      | (false, _) => none

theorem read_list_flag {php : Library} {saved : Value} {key : String} {elsewhere : Value} :
    (read_list php saved key elsewhere).1 = false ↔ ∀ field,
      get saved.items (name (key ++ "_json")) = some field →
        (decode_config_list php field).isSome := by
  unfold read_list
  cases hget : get saved.items (name (key ++ "_json")) with
  | none =>
    refine iff_of_true ?_ (fun field h => (by cases h))
    dsimp only
    split <;> rfl
  | some field =>
    dsimp only
    cases hdecode : decode_config_list php field with
    | none =>
      refine iff_of_false (fun h => (by cases h)) (fun h => ?_)
      have hsome := h field rfl
      rw [hdecode] at hsome
      cases hsome
    | some values =>
      refine iff_of_true rfl (fun field' h => ?_)
      cases h
      rw [hdecode]
      rfl

theorem entry_put_self (cfg : Items) (key : String) (value : Value) :
    entry (put cfg (name key) value) key = value := by
  rw [entry, get_put_self]
  rfl

theorem lists_iff (php : Library) (root : Value) :
    config_error php root = [] ↔ ∀ key ∈ ["clients", "jails", "wan_interfaces"], ∀ field,
      get (saved_config php root).items (name (key ++ "_json")) = some field →
        (decode_config_list php field).isSome := by
  rw [config_error_eq_nil, List.forall_mem_cons, List.forall_mem_cons, List.forall_mem_singleton,
    read_clients, read_jails, read_wan_interfaces, read_list_flag, read_list_flag, read_list_flag]

theorem config_error_text (php : Library) (root : Value) :
    is_empty (.str (config_error php root)) = true ↔ config_error php root = [] := by
  unfold config_error
  split
  · decide
  · split
    · decide
    · split
      · decide
      · decide

/-- An error is read when a list is malformed or when one was stored. -/
theorem healthy_iff (php : Library) (start : StoredConfig php) :
    is_empty (entry (get_config php start.root) "_config_error") = true ↔
      Healthy php start.root := by
  obtain ⟨root, hdistinct⟩ := start
  show is_empty (entry (get_config php root) "_config_error") = true ↔ Healthy php root
  by_cases hnil : config_error php root = []
  · have hentry : entry (get_config php root) "_config_error" =
        entry (saved_config php root).items "_config_error" := by
      rw [entry, entry, get_config_error hnil]
      cases hsaved : saved_config php root with
      | arr saved =>
        rw [hsaved] at hdistinct
        rw [merged_error hsaved hdistinct]
        rfl
      | _ =>
        rw [merged, hsaved]
        dsimp only
        rw [default_get_error]
        rfl
    rw [hentry]
    exact ⟨fun h => ⟨(lists_iff php root).mp hnil, h⟩, fun h => h.no_error⟩
  · -- a malformed list always leaves its error
    refine iff_of_false ?_ (fun h => hnil ((lists_iff php root).mpr h.lists))
    have hentry : entry (get_config php root) "_config_error" = .str (config_error php root) := by
      unfold get_config
      dsimp only
      rw [if_pos hnil, entry_put_self]
    rw [hentry, config_error_text]
    exact hnil

/-- After a save the path of the configuration is still free of texts. -/
theorem save_unblocked {php : Library} {root root' : Value} {edit : Edit}
    (hroot : Unblocked root config_0_path) (h : save php root edit = (true, root')) :
    Unblocked root' config_0_path := by
  obtain ⟨persist, -, rfl⟩ := save_eq_true h
  exact unblocked_of_value_at (php.set_found hroot _)

/-- No save changes the error that is read, or brings a text into the path of the configuration. -/
theorem run_error {php : Library} {edits : List Edit} : ∀ {root root' : Value},
    Unblocked root config_0_path → run php root edits = some root' →
      entry (get_config php root') "_config_error" = entry (get_config php root) "_config_error" ∧
        Unblocked root' config_0_path := by
  induction edits with
  | nil =>
    intro root root' hroot h
    cases h
    exact ⟨rfl, hroot⟩
  | cons edit edits ih =>
    intro root root' hroot h
    rw [run] at h
    rcases hsave : save php root edit with ⟨result, stored⟩
    rw [hsave] at h
    cases result with
    | false => cases h
    | true =>
      obtain ⟨herror, hroot'⟩ := ih (save_unblocked hroot hsave) h
      exact ⟨herror.trans (save_returns_iff hroot hsave).2, hroot'⟩

/-- **What a save stores comes back.** Take any stored configuration that can be written at
`installedpackages/f2bguard/config/0`, that is, one with nothing but arrays on that path, and any
sequence of successful page saves. After the last one the configuration that is read has the
enabled flag and the lists that were stored, and reports no error, exactly when the configuration
was healthy at the start and JSON reproduces the lists. The saves in between may be of any page: a
list that was malformed once leaves its error behind, however often the configuration is saved. -/
theorem saved_config_iff (php : Library) (start : StoredConfig php)
    (hstart : Unblocked start.root config_0_path) (edits : List Edit) (edit : Edit)
    (root root' : Value) (hrun : run php start.root edits = some root)
    (hsave : save php root edit = (true, root')) :
    Returns (edit.apply (get_config php root)) (get_config php root') ↔
      Healthy php start.root ∧ StableLists php (edit.apply (get_config php root)) := by
  obtain ⟨herror, hroot⟩ := run_error hstart hrun
  rw [(save_returns_iff hroot hsave).1, herror, healthy_iff]

/-! A client is saved, over an empty configuration and over one whose clients are malformed. -/

def sample_clients : List Value := [.arr [
  (name "id", .str "collector".toList),
  (name "cert_sha256", of_list [.str (List.replicate 64 'a')]),
  (name "allowed_jails", of_list [.str "recidive".toList])]]

def sample_edit : Edit := { clients := some sample_clients }

def empty_config : StoredConfig sample_library := ⟨.arr [], by decide⟩

theorem empty_config_unblocked : Unblocked empty_config.root config_0_path :=
  fun value h => (by cases h)

def stored_clients : Value := (save sample_library empty_config.root sample_edit).2

theorem save_of_true {php : Library} {root : Value} {edit : Edit}
    (h : (save php root edit).1 = true) :
    save php root edit = (true, (save php root edit).2) := by
  rw [← h]

theorem sample_clients_plain : ∀ v ∈ sample_clients, Plain v := by
  intro v hv
  rw [sample_clients, List.mem_singleton] at hv
  refine .inr ⟨[("id".toList, .str "collector".toList),
    ("cert_sha256".toList, of_list [.str (List.replicate 64 'a')]),
    ("allowed_jails".toList, of_list [.str "recidive".toList])], List.cons_ne_nil _ _, by decide,
    ?_, hv⟩
  rw [List.forall_mem_cons, List.forall_mem_cons, List.forall_mem_singleton]
  refine ⟨⟨by decide, by decide, .inl ⟨_, by decide, rfl⟩⟩,
    ⟨by decide, by decide, .inr ⟨[List.replicate 64 'a'], by decide, rfl⟩⟩,
    ⟨by decide, by decide, .inr ⟨["recidive".toList], by decide, rfl⟩⟩⟩

theorem saved_config_iff_sample :
    Returns (sample_edit.apply (get_config sample_library empty_config.root))
      (get_config sample_library stored_clients) := by
  have hsave : (save sample_library empty_config.root sample_edit).1 = true := by decide +kernel
  have hjails : (read_jails sample_library empty_config.root).2 = [] := by
    rw [← List.isEmpty_iff]
    decide +kernel
  have hwan : (read_wan_interfaces sample_library empty_config.root).2 = [] := by
    rw [← List.isEmpty_iff]
    decide +kernel
  have hholds := edit_holds (get_config_holds sample_library empty_config.root (merged_distinct _ _))
    sample_edit
  rw [hjails, hwan] at hholds
  have hempty : Stable sample_library [] :=
    stable_of_plain sample_library (fun v hv => absurd hv List.not_mem_nil)
  exact (saved_config_iff sample_library empty_config empty_config_unblocked [] sample_edit
    empty_config.root _ rfl (save_of_true hsave)).mpr ⟨(healthy_iff sample_library empty_config).mp (by decide +kernel),
      hholds.stableLists.mpr ⟨stable_of_plain sample_library sample_clients_plain, hempty, hempty⟩⟩

/-- `clients_json` is no JSON. -/
def malformed_config : Value :=
  .arr [(name "installedpackages", .arr [(name "f2bguard", .arr [(name "config",
    of_list [.arr [(name "clients_json", .str "not-json".toList)]])])])]

/-- The save succeeds and the clients come back, but the error is still reported. -/
theorem malformed_client_list_stays :
    ∃ root', save sample_library malformed_config sample_edit = (true, root') ∧
      ¬ Returns (sample_edit.apply (get_config sample_library malformed_config))
        (get_config sample_library root') := by
  have hsave : (save sample_library malformed_config sample_edit).1 = true := by decide +kernel
  have herror : is_empty (entry (get_config sample_library malformed_config) "_config_error") = false := by
    decide +kernel
  have hroot : Unblocked malformed_config config_0_path :=
    unblocked_of_value_at (v := .arr [(name "clients_json", .str "not-json".toList)]) rfl
  refine ⟨_, save_of_true hsave, ?_⟩
  rw [(save_returns_iff hroot (save_of_true hsave)).1, herror]
  exact fun h => Bool.false_ne_true h.1

end F2bguard.ConfigStore
