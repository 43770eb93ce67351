/-
The invariant of what the pages save.

The entries that the service's configuration is rendered from are carried through each of the
steps a page takes: it reads the configuration, replaces some entries, and stores all of them;
the next page reads them back. `Sound` says what holds of these entries after every run of
saves (`reachable_sound`).
-/
import F2bguard.ClientRecord

set_option autoImplicit false

namespace F2bguard.Pages

open F2bguard.PyText F2bguard.PyJson F2bguard.Ipaddress F2bguard.Alias F2bguard.ConfigStore
open F2bguard.Runtime F2bguard.ReceiverConfig
open F2bguard.Php hiding is_space

/-! ## The invariant

`Sound` speaks about the configuration as `f2bguard_get_config` returns it, which is what the
pages edit and what is rendered. -/

/-- The address of an enabled service parses. Of the default that is not known, as `inet_pton` is
a parameter; but a firewall on which the general page was never saved is not enabled. -/
def Listens (site : Site) (cfg : Items) : Prop :=
  ∃ listen, get cfg (name "listen") = some (.str listen) ∧
    (get cfg (name "enabled") = some (.bool true) → ∃ a, site.inet.pton listen = some a)

/-- An entry holds an integer of a range. -/
def InRange (items : Items) (key : String) (minimum maximum : ℤ) : Prop :=
  ∃ n, get items (name key) = some (.int n) ∧ minimum ≤ n ∧ n ≤ maximum

/-- An entry holds an integer of a range, or the 0 that an empty field of the form leaves: the check
takes the default in its place, the edit takes the text. -/
def InRangeOrZero (items : Items) (key : String) (minimum maximum : ℤ) : Prop :=
  ∃ n, get items (name key) = some (.int n) ∧ (n = 0 ∨ minimum ≤ n ∧ n ≤ maximum)

/-- The limits are an array with each of them in its range, or 0. -/
def Limited (cfg : Items) : Prop :=
  ∃ limits, get cfg (name "limits") = some (.arr limits) ∧ (keys limits).Nodup ∧
    ∀ spec ∈ limit_specs, InRangeOrZero limits spec.key spec.minimum spec.maximum

/-- The clients are records whose ids differ in more than case. -/
def Registered (cfg : Items) : Prop :=
  ∃ records : List ClientRecord,
    get cfg (name "clients") = some (of_list (records.map ClientRecord.value)) ∧
      (records.map (fun r => strtolower r.id)).Nodup

/-- What every save keeps: five entries with their ranges. The others are not rendered, or are
constants. -/
structure Sound (site : Site) (cfg : Items) : Prop where
  listen : Listens site cfg
  port : InRange cfg "port" 1024 65535
  limits : Limited cfg
  history_days : InRangeOrZero cfg "history_days" 1 3650
  clients : Registered cfg

/-- The entries that `Sound` is about. -/
def sound_keys : List String := ["enabled", "listen", "port", "limits", "history_days", "clients"]

theorem Sound.congr {site : Site} {cfg cfg' : Items} (h : Sound site cfg)
    (heq : ∀ key ∈ sound_keys, get cfg' (name key) = get cfg (name key)) : Sound site cfg' where
  listen := by
    obtain ⟨listen, hget, hparse⟩ := h.listen
    refine ⟨listen, (heq _ (by decide)).trans hget, fun henabled => hparse ?_⟩
    rw [← heq "enabled" (by decide)]
    exact henabled
  port := by
    obtain ⟨n, hget, hn⟩ := h.port
    exact ⟨n, (heq _ (by decide)).trans hget, hn⟩
  limits := by
    obtain ⟨limits, hget, hlimits⟩ := h.limits
    exact ⟨limits, (heq _ (by decide)).trans hget, hlimits⟩
  history_days := by
    obtain ⟨n, hget, hn⟩ := h.history_days
    exact ⟨n, (heq _ (by decide)).trans hget, hn⟩
  clients := by
    obtain ⟨records, hget, hdistinct⟩ := h.clients
    exact ⟨records, (heq _ (by decide)).trans hget, hdistinct⟩

/-! ## Storing and reading back

An entry that is neither a list nor the flag is stored as it is and merged over its default, so it
is read as it was stored. -/

theorem store_list_other {php : Library} {persist persist' : Items} {key other : String}
    (h : store_list php persist key = some persist') (hkey : other ≠ key)
    (hjson : other ≠ key ++ "_json") : get persist' (name other) = get persist (name other) := by
  unfold store_list at h
  dsimp only at h
  obtain ⟨text, -, rfl⟩ := Option.map_eq_some_iff.mp h
  rw [get_unset, if_neg (name_ne hkey), get_put_name hjson]

/-- What the storage leaves as it is. -/
theorem config_for_storage_other {php : Library} {cfg persist : Items} {key : String}
    (h : config_for_storage php cfg = some persist)
    (hkey : key ∉ ["enabled", "clients", "jails", "wan_interfaces", "clients" ++ "_json",
      "jails" ++ "_json", "wan_interfaces" ++ "_json"]) :
    get persist (name key) = get cfg (name key) := by
  simp only [List.mem_cons, List.not_mem_nil, or_false, not_or] at hkey
  obtain ⟨henabled, hclients, hjails, hwan, hclients', hjails', hwan'⟩ := hkey
  unfold config_for_storage at h
  dsimp only at h
  obtain ⟨persist2, h2, h3⟩ := Option.bind_eq_some_iff.mp h
  obtain ⟨persist1, h1, h2⟩ := Option.bind_eq_some_iff.mp h2
  rw [store_list_other h3 hwan hwan', store_list_other h2 hjails hjails',
    store_list_other h1 hclients hclients', get_put_name henabled]

/-- An entry that is not a list, the flag or the error is read as it was merged. -/
theorem get_config_other (php : Library) (root : Value) {key : String}
    (hkey : key ∉ ["enabled", "clients", "jails", "wan_interfaces", "_config_error"]) :
    get (get_config php root) (name key) = get (merged php root) (name key) := by
  simp only [List.mem_cons, List.not_mem_nil, or_false, not_or] at hkey
  obtain ⟨henabled, hclients, hjails, hwan, herror⟩ := hkey
  unfold get_config
  dsimp only
  split
  · rw [get_put_name herror, get_put_name hwan, get_put_name hjails, get_put_name hclients,
      get_put_name henabled]
  · rw [get_put_name hwan, get_put_name hjails, get_put_name hclients, get_put_name henabled]

/-- A stored entry is merged over its default. -/
theorem get_config_merged {php : Library} {root : Value} {saved : Items} {key : String}
    {value : Value} (hsaved : saved_config php root = .arr saved)
    (hdistinct : (keys saved).Nodup)
    (hkey : key ∉ ["enabled", "clients", "jails", "wan_interfaces", "_config_error"])
    (hget : get saved (name key) = some value) :
    get (get_config php root) (name key) =
      some (replace_value (get default_config (name key)) value) := by
  rw [get_config_other php root hkey, merged, hsaved]
  dsimp only
  rw [get_replace_recursive hdistinct, hget]

theorem get_merged_limit {limits : Items} {spec : LimitSpec} (hdistinct : (keys limits).Nodup)
    {n : ℤ} (hget : get limits (name spec.key) = some (.int n)) :
    get (array_replace_recursive default_limits limits) (name spec.key) = some (.int n) := by
  rw [get_replace_recursive hdistinct, hget]
  dsimp only
  rw [replace_value]

theorem default_limits_distinct : (keys default_limits).Nodup := by
  decide

/-- What is sound when it is stored is sound when it is read. -/
theorem sound_stored {site : Site} {root : Value} {cfg persist : Items} {b : Bool}
    {clients jails wan_interfaces : List Value} (hroot : Unblocked root config_0_path) (hsound : Sound site cfg)
    (hholds : Holds cfg b clients jails wan_interfaces)
    (h : config_for_storage site.php cfg = some persist) :
    Sound site (get_config site.php (site.php.config_set_path root config_0_path (.arr persist))) := by
  have hpersisted := config_for_storage_spec hholds h
  have hsaved := saved_config_stored site.php hroot persist
  obtain ⟨clients', jails', wan', hread, hclients, -, -, -⟩ := get_config_stored hroot hpersisted
  generalize site.php.config_set_path root config_0_path (.arr persist) = root' at hsaved hread ⊢
  -- the members that the form leaves alone are read back merged with their defaults
  have hkeep : ∀ {key : String} {value : Value}, key ∈ ["listen", "port", "limits", "history_days"] →
      get cfg (name key) = some value →
      get (get_config site.php root') (name key) =
        some (replace_value (get default_config (name key)) value) := by
    intro key value hkey hget
    have hothers : ∀ key ∈ ["listen", "port", "limits", "history_days"],
        key ∉ ["enabled", "clients", "jails", "wan_interfaces", "_config_error"] ∧
          key ∉ ["enabled", "clients", "jails", "wan_interfaces", "clients" ++ "_json",
            "jails" ++ "_json", "wan_interfaces" ++ "_json"] := by decide
    obtain ⟨hread, hstored⟩ := hothers key hkey
    exact get_config_merged hsaved hpersisted.distinct hread
      ((config_for_storage_other h hstored).trans hget)
  -- a number replaces its default
  have hint : ∀ {key : String} {n : ℤ}, key ∈ ["listen", "port", "limits", "history_days"] →
      get cfg (name key) = some (.int n) →
      get (get_config site.php root') (name key) = some (.int n) := by
    intro key n hkey hget
    rw [hkeep hkey hget, replace_value]
  obtain ⟨port, hport, hport_range⟩ := hsound.port
  obtain ⟨days, hdays, hdays_range⟩ := hsound.history_days
  refine ⟨?_, ⟨port, hint (by decide) hport, hport_range⟩, ?_,
    ⟨days, hint (by decide) hdays, hdays_range⟩, ?_⟩
  · obtain ⟨listen, hget, hparse⟩ := hsound.listen
    refine ⟨listen, by rw [hkeep (by decide) hget, replace_value], fun henabled => hparse ?_⟩
    rw [hread.enabled] at henabled
    rw [hholds.enabled]
    exact henabled
  · obtain ⟨limits, hget, hdistinct, hlimits⟩ := hsound.limits
    refine ⟨array_replace_recursive default_limits limits, ?_,
      nodup_replace_recursive limits default_limits_distinct, ?_⟩
    · rw [hkeep (by decide) hget,
        show get default_config (name "limits") = some (.arr default_limits) from rfl, replace_value]
    · intro spec hspec
      obtain ⟨n, hn, hrange⟩ := hlimits spec hspec
      exact ⟨n, get_merged_limit hdistinct hn, hrange⟩
  · obtain ⟨records, hget, hdistinct⟩ := hsound.clients
    refine ⟨records, ?_, hdistinct⟩
    rw [hholds.clients, Option.some.injEq] at hget
    have heq := of_list_injective hget
    subst heq
    rw [hread.clients, hclients.mpr (stable_of_plain site.php ?_)]
    intro v hv
    obtain ⟨r, -, rfl⟩ := List.mem_map.mp hv
    exact r.plain

/-! ## Edits

What a check has accepted is what the edit stores, or the 0 of an empty field. -/

/-- The address is accepted by `inet_pton`. -/
theorem validated_listen {site : Site} {root : Value} {post : Items}
    (h : validate_general site root post = []) :
    ∃ a, site.inet.pton (trim (to_text site.php (entry post "listen"))) = some a := by
  unfold validate_general at h
  dsimp only at h
  simp only [List.append_eq_nil_iff, error_if_eq_nil] at h
  have hlisten := h.1.1.1.1.1.1.1.1.1
  rw [Bool.or_eq_false_iff, Bool.or_eq_false_iff, ← (posted_text site.php post "listen").2] at hlisten
  exact Option.isSome_iff_exists.mp (Option.isNone_eq_false_iff.mp hlisten.1.1)

theorem in_range_of_accepted {php : Library} {raw : Value} {minimum maximum : ℤ}
    (h : out_of_range php raw minimum maximum = false) :
    is_scalar raw = true ∧ minimum ≤ to_int php raw ∧ to_int php raw ≤ maximum := by
  simp only [out_of_range, Bool.or_eq_false_iff, Bool.not_eq_false', decide_eq_false_iff_not,
    not_lt] at h
  exact ⟨h.1.1.1, h.1.2, h.2⟩

/-- What is a scalar is the same however the page reads it, but for the empty text: the check reads
its default instead. -/
theorem posted_scalar {php : Library} {post : Items} {key : String} {default : Value}
    (h : is_scalar (posted php post key default) = true) :
    posted_or post key default = .str [] ∨
      posted_or post key default = posted php post key default := by
  unfold posted posted_or at *
  cases hget : get post (name key) with
  | none => exact .inr (php.get_entry_none hget _).symm
  | some v =>
    by_cases hempty : v = .str []
    · subst hempty
      exact .inl rfl
    · rw [php.get_entry hget hempty] at h ⊢
      cases v with
      | null => cases h
      | _ => exact .inr rfl

/-- A number that the check accepts is saved as it is, or as 0 when its field is empty. -/
theorem posted_number {php : Library} {post : Items} {key : String} {default minimum maximum : ℤ}
    (h : out_of_range php (posted php post key (.int default)) minimum maximum = false) :
    to_int php (posted_or post key (.int default)) = 0 ∨
      minimum ≤ to_int php (posted_or post key (.int default)) ∧
        to_int php (posted_or post key (.int default)) ≤ maximum := by
  obtain ⟨hscalar, hrange⟩ := in_range_of_accepted h
  rcases posted_scalar hscalar with hempty | hsame
  · rw [hempty]
    exact .inl php.strtol_nil
  · rw [hsame]
    exact .inr hrange

theorem validated_limits {site : Site} {root : Value} {post : Items}
    (h : validate_general site root post = []) : ∀ spec ∈ limit_specs,
      to_int site.php (posted_or post spec.key (.int spec.default)) = 0 ∨
        spec.minimum ≤ to_int site.php (posted_or post spec.key (.int spec.default)) ∧
          to_int site.php (posted_or post spec.key (.int spec.default)) ≤ spec.maximum := by
  unfold validate_general at h
  dsimp only at h
  simp only [List.append_eq_nil_iff, error_if_eq_nil, List.flatMap_eq_nil_iff] at h
  exact fun spec hspec => posted_number (h.1.1.1.1.1.1.2 spec hspec)

theorem validated_days {site : Site} {root : Value} {post : Items}
    (h : validate_general site root post = []) :
    to_int site.php (posted_or post "history_days" (.int 90)) = 0 ∨
      1 ≤ to_int site.php (posted_or post "history_days" (.int 90)) ∧
        to_int site.php (posted_or post "history_days" (.int 90)) ≤ 3650 := by
  unfold validate_general at h
  dsimp only at h
  simp only [List.append_eq_nil_iff, error_if_eq_nil] at h
  exact posted_number h.1.1.1.1.1.2

theorem validated_port {site : Site} {root : Value} {post : Items}
    (h : validate_general site root post = []) :
    1024 ≤ to_int site.php (entry post "port") ∧ to_int site.php (entry post "port") ≤ 65535 := by
  unfold validate_general at h
  dsimp only at h
  simp only [List.append_eq_nil_iff, error_if_eq_nil] at h
  have hrange := h.1.1.1.1.1.1.1.2
  -- with the empty text for a default the check reads the entry itself
  have hentry : to_int site.php (posted site.php post "port" (.str [])) =
      to_int site.php (entry post "port") := by
    unfold posted entry
    cases hget : get post (name "port") with
    | none =>
      rw [site.php.get_entry_none hget]
      exact site.php.strtol_nil
    | some v =>
      rw [site.php.get_entry_text hget]
      rfl
  rw [hentry] at hrange
  simp only [Bool.or_eq_false_iff, decide_eq_false_iff_not, not_lt] at hrange
  exact hrange

/-! Limits are set one after the other. -/

theorem get_limits_other {f : LimitSpec → Value} {specs : List LimitSpec} {key : String}
    (hkey : key ∉ specs.map LimitSpec.key) : ∀ items : Items,
      get (specs.foldl (fun limits spec => put limits (name spec.key) (f spec)) items) (name key) =
        get items (name key) := by
  induction specs with
  | nil => exact fun _ => rfl
  | cons spec specs ih =>
    intro items
    rw [List.map_cons, List.mem_cons, not_or] at hkey
    rw [List.foldl_cons, ih hkey.2, get_put_name hkey.1]

theorem get_limits {f : LimitSpec → Value} {specs : List LimitSpec}
    (hdistinct : (specs.map LimitSpec.key).Nodup) : ∀ items : Items, ∀ spec ∈ specs,
      get (specs.foldl (fun limits spec => put limits (name spec.key) (f spec)) items)
        (name spec.key) = some (f spec) := by
  induction specs with
  | nil => exact fun _ spec hspec => absurd hspec List.not_mem_nil
  | cons first specs ih =>
    intro items spec hspec
    rw [List.map_cons, List.nodup_cons] at hdistinct
    rw [List.foldl_cons]
    rcases List.mem_cons.mp hspec with rfl | hspec
    · rw [get_limits_other hdistinct.1, get_put_self]
    · exact ih hdistinct.2 _ spec hspec

theorem nodup_limits {f : LimitSpec → Value} (specs : List LimitSpec) : ∀ {items : Items},
    (keys items).Nodup →
    (keys (specs.foldl (fun limits spec => put limits (name spec.key) (f spec)) items)).Nodup := by
  induction specs with
  | nil => exact fun h => h
  | cons spec specs ih => exact fun h => ih (nodup_put h _ _)

theorem limit_keys_distinct : (limit_specs.map LimitSpec.key).Nodup := by
  decide

theorem edited_limits_limited {site : Site} {root : Value} {cfg post : Items} (hcfg : Limited cfg)
    (h : validate_general site root post = []) :
    (keys (edited_limits site.php cfg post)).Nodup ∧
      ∀ spec ∈ limit_specs,
        InRangeOrZero (edited_limits site.php cfg post) spec.key spec.minimum spec.maximum := by
  obtain ⟨limits, hget, hdistinct, -⟩ := hcfg
  have hitems : (entry cfg "limits").items = limits := by
    rw [entry, hget]
    rfl
  unfold edited_limits
  rw [hitems]
  refine ⟨nodup_limits limit_specs hdistinct, fun spec hspec => ⟨_, ?_, validated_limits h spec hspec⟩⟩
  exact get_limits limit_keys_distinct limits spec hspec

/-- The general page keeps the configuration sound. -/
theorem general_sound {site : Site} {root : Value} {cfg post : Items} (hsound : Sound site cfg)
    (h : validate_general site root post = []) :
    Sound site ((general_edit site.php cfg post).apply cfg) := by
  obtain ⟨hdistinct, hlimits⟩ := edited_limits_limited hsound.limits h
  have hget : ∀ key : String,
      get ((general_edit site.php cfg post).apply cfg) (name key) =
        if key = "wan_interfaces" then some (of_list ((matching interface_re
          (to_array (posted_or post "wan_interfaces" (.str [])))).map Value.str))
        else if key = "enabled" then some (.bool (!is_empty (entry post "enabled")))
        else if key = "whitelist_alias" then
          some (.str (trimmed site.php post "whitelist_alias"))
        else if key = "tls_ca_ref" then some (.str (trimmed site.php post "tls_ca_ref"))
        else if key = "tls_cert_ref" then some (.str (trimmed site.php post "tls_cert_ref"))
        else if key = "history_days" then
          some (.int (to_int site.php (posted_or post "history_days" (.int 90))))
        else if key = "limits" then some (.arr (edited_limits site.php cfg post))
        else if key = "port" then some (.int (to_int site.php (entry post "port")))
        else if key = "listen" then some (.str (trim (to_text site.php (entry post "listen"))))
        else get cfg (name key) := by
    intro key
    have hname : ∀ other : String, name key = name other ↔ key = other :=
      fun other => ⟨fun h => by_contra (fun hne => name_ne hne h), fun h => by rw [h]⟩
    simp only [Edit.apply, general_edit, put_list, List.foldl_cons, List.foldl_nil,
      GeneralField.key, get_put, hname]
  refine ⟨⟨_, hget "listen", fun _ => validated_listen h⟩, ⟨_, hget "port", validated_port h⟩,
    ⟨_, hget "limits", hdistinct, hlimits⟩, ⟨_, hget "history_days", validated_days h⟩, ?_⟩
  obtain ⟨records, hclients, hids⟩ := hsound.clients
  exact ⟨records, (hget "clients").trans hclients, hids⟩

/-! ## The clients

The list is changed at one place. The record that is placed there has an id that no other place
has, up to case. -/

theorem page_clients_eq {cfg : Items} {values : List Value}
    (h : get cfg (name "clients") = some (of_list values)) : page_clients cfg = values := by
  rw [page_clients, entry, h]
  exact array_values_of_list values

/-- Replacing the clients alone. -/
theorem clients_sound {site : Site} {cfg : Items} {records : List ClientRecord}
    (hsound : Sound site cfg) (hids : (records.map (fun r => strtolower r.id)).Nodup) :
    Sound site (({ clients := some (records.map ClientRecord.value) } : Edit).apply cfg) := by
  have hget : ∀ {key : String}, key ≠ "clients" →
      get (({ clients := some (records.map ClientRecord.value) } : Edit).apply cfg) (name key) =
        get cfg (name key) := fun hne => get_put_name hne
  obtain ⟨⟨listen, hlisten, hparse⟩, ⟨port, hport⟩, ⟨limits, hlimits⟩, ⟨days, hdays⟩, -⟩ := hsound
  exact ⟨⟨listen, (hget (by decide)).trans hlisten, fun h => hparse ((hget (by decide)).symm.trans h)⟩,
    ⟨port, (hget (by decide)).trans hport.1, hport.2⟩,
    ⟨limits, (hget (by decide)).trans hlimits.1, hlimits.2⟩,
    ⟨days, (hget (by decide)).trans hdays.1, hdays.2⟩, ⟨records, get_put_self _ _ _, hids⟩⟩

/-- No other client has the id, up to case. -/
theorem in_use_eq_nil {php : Library} {records : List ClientRecord} {index : Option ℕ} {id : Text}
    (h : in_use php (records.map ClientRecord.value) index id = []) {i : ℕ} {r : ClientRecord}
    (hr : records[i]? = some r) (hi : some i ≠ index) : strtolower r.id ≠ strtolower id := by
  rw [in_use, List.map_eq_nil_iff, List.filter_eq_nil_iff] at h
  have hmem : (r.value, i) ∈ (records.map ClientRecord.value).zipIdx := by
    rw [List.mk_mem_zipIdx_iff_getElem?, List.getElem?_map, hr]
    rfl
  intro heq
  refine h _ hmem ?_
  rw [decide_eq_true_eq, r.get_id]
  exact ⟨hi, heq⟩

/-- A value takes a place in a list without repetition when no other place has it. -/
theorem nodup_set {l : List Text} {i : ℕ} {x : Text} (h : l.Nodup)
    (hx : ∀ j : ℕ, j ≠ i → l[j]? ≠ some x) : (l.set i x).Nodup := by
  rw [List.nodup_iff_getElem?_ne_getElem?] at h ⊢
  intro a b hab hb
  rw [List.length_set] at hb
  rw [List.getElem?_set, List.getElem?_set]
  by_cases ha : i = a
  · subst ha
    rw [if_pos rfl, if_pos (by omega), if_neg (by omega)]
    exact fun heq => hx b (by omega) heq.symm
  · rw [if_neg ha]
    by_cases hib : i = b
    · subst hib
      rw [if_pos rfl, if_pos hb]
      exact hx a (by omega)
    · rw [if_neg hib]
      exact h a b hab hb

theorem is_set_records {records : List ClientRecord} {index : Option ℕ} :
    is_set (records.map ClientRecord.value) index = true ↔
      ∃ i r, index = some i ∧ records[i]? = some r := by
  cases index with
  | none =>
    refine iff_of_false (fun h => (by cases h)) ?_
    rintro ⟨i, r, h, -⟩
    cases h
  | some i =>
    rw [is_set, Option.bind_some, List.getElem?_map]
    cases hr : records[i]? with
    | none =>
      refine iff_of_false (fun h => (by cases h)) ?_
      rintro ⟨j, r, h, hj⟩
      cases h
      rw [hr] at hj
      cases hj
    | some r => exact iff_of_true rfl ⟨i, r, rfl, hr⟩

/-- The placed record leaves the ids distinct. -/
theorem place_records {php : Library} {records : List ClientRecord} {index : Option ℕ}
    (r : ClientRecord) (hids : (records.map (fun r => strtolower r.id)).Nodup)
    (hfree : in_use php (records.map ClientRecord.value) index r.id = []) :
    ∃ records' : List ClientRecord,
      place (records.map ClientRecord.value) index r.value = records'.map ClientRecord.value ∧
        (records'.map (fun r => strtolower r.id)).Nodup := by
  unfold place
  split
  · rename_i hset
    obtain ⟨i, old, rfl, hold⟩ := is_set_records.mp hset
    refine ⟨records.set i r, by rw [List.map_set, Option.getD_some], ?_⟩
    rw [List.map_set]
    refine nodup_set hids (fun j hj => ?_)
    rw [List.getElem?_map]
    intro hid
    obtain ⟨other, hother, heq⟩ := Option.map_eq_some_iff.mp hid
    exact in_use_eq_nil hfree hother (fun h => hj (Option.some.inj h)) heq
  · rename_i hset
    refine ⟨records ++ [r], by rw [List.map_append, List.map_singleton], ?_⟩
    rw [List.map_append, List.map_singleton]
    refine List.nodup_append.mpr ⟨hids, List.nodup_singleton _, ?_⟩
    intro id hid id' hid' heq
    rw [List.mem_singleton] at hid'
    obtain ⟨other, hother, rfl⟩ := List.mem_map.mp hid
    obtain ⟨i, hi⟩ := List.mem_iff_getElem?.mp hother
    refine in_use_eq_nil hfree hi ?_ (heq.trans hid')
    -- an index that names a client is one that is set
    rintro rfl
    exact hset (is_set_records.mpr ⟨i, other, rfl, hi⟩)

theorem save_client_sound {site : Site} {root : Value} {post : Items} {edit : Edit}
    (hsound : Sound site (get_config site.php root)) (h : save_client site root post = .ok edit) :
    Sound site (edit.apply (get_config site.php root)) := by
  obtain ⟨records, hget, hids⟩ := hsound.clients
  unfold save_client at h
  dsimp only at h
  rw [page_clients_eq hget] at h
  split at h
  · rename_i herrors
    rw [List.append_eq_nil_iff, List.map_eq_nil_iff] at herrors
    cases h
    obtain ⟨r, hr, hid⟩ := posted_record_valid herrors.1
    rw [hr]
    have hfree := herrors.2
    rw [← hid] at hfree
    obtain ⟨records', hplace, hids'⟩ := place_records r hids hfree
    rw [hplace]
    exact clients_sound hsound hids'
  · cases h

theorem delete_client_sound {site : Site} {root : Value} {post : Items} {edit : Edit}
    (hsound : Sound site (get_config site.php root)) (h : delete_client site root post = .ok edit) :
    Sound site (edit.apply (get_config site.php root)) := by
  obtain ⟨records, hget, hids⟩ := hsound.clients
  unfold delete_client at h
  dsimp only at h
  rw [page_clients_eq hget] at h
  split at h
  · cases h
    rw [List.eraseIdx_map]
    exact clients_sound hsound
      (((List.eraseIdx_sublist records _).map (fun r => strtolower r.id)).nodup hids)
  · cases h

/-- The catalogue of jails is none of the entries of the service. -/
theorem jails_sound {site : Site} {cfg : Items} (hsound : Sound site cfg) (jails : List Value) :
    Sound site (({ jails := some jails } : Edit).apply cfg) := by
  refine hsound.congr (fun key hkey => get_put_name ?_)
  rintro rfl
  exact absurd hkey (by decide)

/-- What a page replaces keeps the configuration sound. -/
theorem edit_sound {site : Site} {root : Value} {request : Request} {edit : Edit}
    (hsound : Sound site (get_config site.php root)) (h : request.edit site root = .ok edit) :
    Sound site (edit.apply (get_config site.php root)) := by
  cases request with
  | save_general post =>
    unfold Request.edit save_general at h
    dsimp only at h
    split at h
    · rename_i hvalid
      cases h
      exact general_sound hsound hvalid
    · cases h
  | save_client post => exact save_client_sound hsound h
  | delete_client post => exact delete_client_sound hsound h
  | save_jail post =>
    unfold Request.edit save_jail at h
    dsimp only at h
    split at h
    · cases h
      exact jails_sound hsound _
    · cases h
  | delete_jail post =>
    cases h
    exact jails_sound hsound _

/-! ## Runs

The induction is over how the configuration was reached. Pages of pfSense change nothing under the entry
of the package, and `get_config` reads nothing else. -/

theorem page_sound {site : Site} {root root' : Value} {request : Request}
    (hroot : Unblocked root config_0_path) (hsound : Sound site (get_config site.php root)) (h : page site root request = some root') :
    Sound site (get_config site.php root') ∧ Unblocked root' config_0_path := by
  unfold page at h
  cases hedit : request.edit site root with
  | error errors =>
    rw [hedit] at h
    cases h
  | ok edit =>
    rw [hedit] at h
    dsimp only at h
    split at h
    · rename_i root'' hsave
      cases h
      obtain ⟨persist, hpersist, rfl⟩ := save_eq_true hsave
      exact ⟨sound_stored hroot (edit_sound hsound hedit)
        (edit_holds (get_config_holds site.php root (merged_distinct site.php root)) edit) hpersist,
        save_unblocked hroot hsave⟩
    · cases h

/-- What lies under `installedpackages/f2bguard` is found from there. -/
theorem value_at_package (root : Value) (rest : List Key) :
    value_at root (name "installedpackages" :: name "f2bguard" :: rest) =
      (package_config root).bind (fun package => value_at package rest) :=
  value_at_append root [name "installedpackages", name "f2bguard"] rest

/-- The configuration is read from there and from nowhere else. -/
theorem get_config_congr (php : Library) {root root' : Value}
    (h : package_config root' = package_config root) : get_config php root' = get_config php root := by
  have hpath : ∀ (rest : List Key) (default : Value),
      php.array_get_path root' (name "installedpackages" :: name "f2bguard" :: rest) default =
        php.array_get_path root (name "installedpackages" :: name "f2bguard" :: rest) default := by
    intro rest default
    refine php.get_congr ?_ default
    rw [value_at_package, value_at_package, h]
  have hsaved : saved_config php root' = saved_config php root := by
    unfold saved_config config_0_path config_path
    simp only [List.cons_append, List.nil_append, hpath]
  have hmerged : merged php root' = merged php root := by rw [merged, merged, hsaved]
  have hclients : read_clients php root' = read_clients php root := by
    rw [read_clients, read_clients, hsaved, hpath]
  have hjails : read_jails php root' = read_jails php root := by
    unfold read_jails config_path
    simp only [List.cons_append, List.nil_append, hpath, hsaved]
  have hwan : read_wan_interfaces php root' = read_wan_interfaces php root := by
    rw [read_wan_interfaces, read_wan_interfaces, hsaved]
  unfold get_config config_error
  rw [hmerged, hclients, hjails, hwan]

/-- The defaults are sound. -/
theorem fresh_sound {site : Site} {root : Value} (h : package_config root = none) :
    Sound site (get_config site.php root) := by
  have hpath : ∀ (rest : List Key) (default : Value),
      site.php.array_get_path root (name "installedpackages" :: name "f2bguard" :: rest) default =
        default := by
    intro rest default
    refine site.php.get_missing ?_ default
    rw [value_at_package, h]
    rfl
  -- nothing is stored, so every member is its default
  have hsaved : saved_config site.php root = .arr [] := by
    unfold saved_config config_0_path config_path
    simp only [List.cons_append, List.nil_append, hpath]
    rfl
  have hmerged : merged site.php root = default_config := by
    rw [merged, hsaved]
    dsimp only
    rw [array_replace_recursive]
  have hclients : read_clients site.php root = (false, []) := by
    have hentry : site.php.array_get_path (.arr []) [name "clients"] .null = .null :=
      site.php.get_entry_none rfl _
    rw [read_clients, hsaved, hpath]
    unfold read_list
    dsimp only [Value.items, get_nil]
    rw [hentry]
    rfl
  have hflag : site.php.array_get_path (.arr default_config) [name "enabled"] (.bool false) =
      .bool false := site.php.get_entry rfl (fun h => (by cases h)) _
  have hholds := get_config_holds site.php root (merged_distinct site.php root)
  rw [hmerged, hclients, hflag] at hholds
  have hother : ∀ {key : String},
      key ∉ ["enabled", "clients", "jails", "wan_interfaces", "_config_error"] →
        get (get_config site.php root) (name key) = get default_config (name key) := by
    intro key hkey
    rw [get_config_other site.php root hkey, hmerged]
  refine ⟨⟨_, hother (by decide), fun henabled => ?_⟩, ⟨9443, hother (by decide), by decide⟩,
    ⟨default_limits, hother (by decide), default_limits_distinct, ?_⟩,
    ⟨90, hother (by decide), .inr (by decide)⟩, ⟨[], hholds.clients, List.nodup_nil⟩⟩
  · -- a fresh configuration is disabled
    rw [hholds.enabled] at henabled
    cases henabled
  · intro spec hspec
    refine ⟨spec.default, ?_, .inr ?_⟩
    all_goals
      simp only [limit_specs, List.mem_cons, List.not_mem_nil, or_false] at hspec
      rcases hspec with rfl | rfl | rfl | rfl
    all_goals first | rfl | decide

/-- **Soundness is an invariant.** After every run of saves the configuration is sound, and can be
saved again. -/
theorem reachable_sound {site : Site} {root : Value} (h : Reachable site root) :
    Sound site (get_config site.php root) ∧ Unblocked root config_0_path := by
  induction h with
  | fresh h hroot => exact ⟨fresh_sound h, hroot⟩
  | page request _ hpage ih => exact page_sound ih.2 ih.1 hpage
  | other _ hother hroot ih =>
    rw [get_config_congr site.php hother]
    exact ⟨ih.1, hroot⟩

end F2bguard.Pages
