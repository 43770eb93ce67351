/-
Which client a certificate belongs to.

`clients_by_fingerprint` flattens the clients of the configuration into a dict, where a second
entry of a fingerprint would replace the first one silently. `parse_config` leaves nothing to
replace: over the loops of all clients it collects the lower-case fingerprints and refuses a
repeated one, and the same for the ids and, within a client, for the jails. So the dict maps a
digest to the client whose list has it, in whatever case, and to no other (`fingerprint_map_spec`).
For any configuration the dict has the last client that lists a digest, which is how the handler
finds its client (`get_clients_eq_getLast?`).
-/
import F2bguard.ReceiverConfig
import F2bguard.PyDict
import F2bguard.Requests

set_option autoImplicit false

namespace F2bguard.ReceiverConfig

open F2bguard.PyText F2bguard.PyJson F2bguard.Claims
open F2bguard.Store (bind_eq_ok)

/-- `Config.clients_by_fingerprint`: every fingerprint of every client, in the order of the file.
-/
def Config.clients_by_fingerprint (config : Config) : List (Text × ClientConfig) :=
  PyDict.of_items (config.clients.flatMap (fun client =>
    client.cert_sha256.map (fun fingerprint => (fingerprint, client))))

theorem find?_entries (client : ClientConfig) (d : Text) :
    ((client.cert_sha256.map (fun fingerprint => (fingerprint, client))).reverse.find?
      (fun item => item.1 = d)).map Prod.snd = if d ∈ client.cert_sha256 then some client else none := by
  rw [← List.map_reverse, List.find?_map, Option.map_map]
  split
  · rename_i hd
    have hsome : (client.cert_sha256.reverse.find? (fun fingerprint => fingerprint = d)).isSome := by
      rw [List.find?_isSome]
      exact ⟨d, List.mem_reverse.mpr hd, decide_eq_true rfl⟩
    obtain ⟨fingerprint, hfind⟩ := Option.isSome_iff_exists.mp hsome
    exact Option.map_eq_some_iff.mpr ⟨fingerprint, hfind, rfl⟩
  · rename_i hd
    refine Option.map_eq_none_iff.mpr (List.find?_eq_none.mpr ?_)
    intro fingerprint hmem heq
    have hsame : fingerprint = d := of_decide_eq_true heq
    exact hd (hsame ▸ List.mem_reverse.mp hmem)

/-- Of the clients that list a digest the dict has the last one. -/
theorem get_clients_eq_getLast? (config : Config) (d : Text) :
    PyDict.get config.clients_by_fingerprint d =
      (config.clients.filter (fun client => d ∈ client.cert_sha256)).getLast? := by
  rw [Config.clients_by_fingerprint, PyDict.get_of_items]
  induction config.clients using List.reverseRecOn with
  | nil => rfl
  | append_singleton clients client ih =>
    rw [List.flatMap_append, List.flatMap_singleton, List.reverse_append, List.find?_append,
      List.filter_append, List.getLast?_append, Option.map_or, find?_entries, ih]
    by_cases hd : d ∈ client.cert_sha256
    · simp [hd]
    · simp [hd]

/-! ## The raw value

What stands in the decoded file, read without any check. A member of another type gives nothing,
so the statements below can be made about every value. -/

/-- The texts of an array. -/
def texts : Option Json → List Text
  | some (.arr values) => values.filterMap (fun value =>
      match value with
      | .str s => some s
      | _ => none)
  | _ => []

def raw_member (item : Json) (key : String) : Option Json :=
  match item with
  | .obj items => get_item items key.toList
  | _ => none

def raw_id (item : Json) : Option Text :=
  match raw_member item "id" with
  | some (.str s) => some s
  | _ => none

def raw_fingerprints (item : Json) : List Text := texts (raw_member item "cert_sha256")

def raw_jails (item : Json) : List Text := texts (raw_member item "allowed_jails")

def raw_clients (raw : Json) : List Json :=
  match raw_member raw "clients" with
  | some (.arr items) => items
  | _ => []

/-- A fingerprint, in whatever case, a client id or a jail within a client is repeated. -/
inductive Repeats (raw : Json) : Prop
  | fingerprint (h : ¬ (((raw_clients raw).flatMap raw_fingerprints).map lower).Nodup)
  | client_id (h : ¬ ((raw_clients raw).filterMap raw_id).Nodup)
  | jail (item : Json) (hitem : item ∈ raw_clients raw) (h : ¬ (raw_jails item).Nodup)

theorem texts_map (ss : List Text) : texts (some (.arr (ss.map Json.str))) = ss := by
  unfold texts
  dsimp only
  rw [List.filterMap_map]
  exact List.filterMap_some

/-! ## What an accepted value says

From the parsed configuration back to the file: each loop has accepted only texts, and has kept
all of them. -/

/-- The members of a client as they were read. -/
structure Reads (item : Json) (client : ClientFields) : Prop where
  id : raw_member item "id" = some (.str client.id)
  fingerprints : raw_member item "cert_sha256" = some (.arr (client.cert_sha256.map Json.str))
  jails : raw_member item "allowed_jails" = some (.arr (client.allowed_jails.map Json.str))

namespace Reads

variable {item : Json} {client : ClientFields} (h : Reads item client)
include h

theorem raw_id_eq : raw_id item = some client.id := by
  rw [raw_id, h.id]

theorem raw_fingerprints_eq : raw_fingerprints item = client.cert_sha256 := by
  rw [raw_fingerprints, h.fingerprints, texts_map]

theorem raw_jails_eq : raw_jails item = client.allowed_jails := by
  rw [raw_jails, h.jails, texts_map]

end Reads

theorem expect_dict_ok {value : Json} {name : Text} {items : List (Text × Json)}
    (h : _expect_dict value name = .ok items) : value = .obj items := by
  unfold _expect_dict at h
  split at h
  · cases h
    rfl
  · cases h

theorem nonempty_array_ok {value : Option Json} {message : Text} {values : List Json}
    (h : nonempty_array value message = .ok values) : value = some (.arr values) ∧ values ≠ [] := by
  unfold nonempty_array at h
  split at h
  · cases h
    exact ⟨rfl, List.cons_ne_nil _ _⟩
  · cases h

/-- What the loop over the fingerprints takes are texts of fingerprints. -/
theorem parse_fingerprints_texts {index : ℕ} {values : List Json} :
    ∀ {fingerprints client_fps : List Text} {result : List Text × List Text},
      parse_fingerprints index values fingerprints client_fps = .ok result →
        ∃ fps : List Text, values = fps.map Json.str ∧
          ∀ fingerprint ∈ fps, fingerprint_re fingerprint = true := by
  induction values with
  | nil => exact fun _ => ⟨[], rfl, fun _ h => (by cases h)⟩
  | cons value values ih =>
    intro fingerprints client_fps result h
    cases value with
    | str s =>
      rw [parse_fingerprints] at h
      split at h
      · cases h
      · rename_i hre
        split at h
        · cases h
        · obtain ⟨fps, rfl, hall⟩ := ih h
          refine ⟨s :: fps, rfl, List.forall_mem_cons.mpr ⟨?_, hall⟩⟩
          simpa using hre
    | _ => cases h

/-- What the loop over the jails takes are texts of jails, each once. -/
theorem parse_jails_texts {index : ℕ} {values : List Json} : ∀ {jails result : Finset Text},
    parse_jails index values jails = .ok result →
      ∃ js : List Text, values = js.map Json.str ∧ (∀ jail ∈ js, id_re jail = true) ∧ js.Nodup ∧
        ∀ jail ∈ js, jail ∉ jails := by
  induction values with
  | nil => exact fun _ => ⟨[], rfl, fun _ h => (by cases h), List.nodup_nil, fun _ h => (by cases h)⟩
  | cons value values ih =>
    intro jails result h
    cases value with
    | str s =>
      rw [parse_jails] at h
      split at h
      · cases h
      · rename_i hre
        split at h
        · cases h
        · rename_i hnew
          obtain ⟨js, rfl, hall, hnodup, hdisjoint⟩ := ih h
          refine ⟨s :: js, rfl, List.forall_mem_cons.mpr ⟨by simpa using hre, hall⟩, ?_, ?_⟩
          · rw [List.nodup_cons]
            exact ⟨fun hs => hdisjoint s hs (Finset.mem_insert_self s jails), hnodup⟩
          · rw [List.forall_mem_cons]
            exact ⟨hnew, fun jail hjail hmem => hdisjoint jail hjail (Finset.mem_insert_of_mem hmem)⟩
    | _ => cases h

/-- An accepted client is one whose members are valid and not in use yet. -/
theorem parse_client_reads {index : ℕ} {item : Json} {client_ids fingerprints : List Text}
    {result : ClientConfig × List Text} (hnodup : fingerprints.Nodup)
    (hparse : parse_client index item client_ids fingerprints = .ok result) :
    ∃ client : ClientFields, Reads item client ∧ client.Parsable ∧ client.id ∉ client_ids ∧
      (fingerprints ++ client.cert_sha256.map lower).Nodup ∧
      result = (client.config, fingerprints ++ client.cert_sha256.map lower) := by
  -- the source's order: the table, its names, the id, then the two arrays
  obtain ⟨items, hitem, h⟩ := bind_eq_ok.mp hparse
  clear hparse
  obtain ⟨_, -, h⟩ := bind_eq_ok.mp h
  obtain rfl := expect_dict_ok hitem
  dsimp only at h
  split at h
  swap
  · cases h
  rename_i client_id hid
  split at h
  swap
  · cases h
  rename_i hre
  obtain ⟨_, hsame, h⟩ := bind_eq_ok.mp h
  cases hsame
  split at h
  · cases h
  rename_i hnew
  obtain ⟨fp_raw, hfp_raw, h⟩ := bind_eq_ok.mp h
  obtain ⟨⟨fingerprints', client_fps⟩, hfps, h⟩ := bind_eq_ok.mp h
  obtain ⟨jails_raw, hjails_raw, h⟩ := bind_eq_ok.mp h
  obtain ⟨jails, hjails, h⟩ := bind_eq_ok.mp h
  cases h
  -- the loops over the arrays return their texts as they stand
  obtain ⟨hfp_raw, hfp_some⟩ := nonempty_array_ok hfp_raw
  obtain ⟨hjails_raw, hjails_some⟩ := nonempty_array_ok hjails_raw
  obtain ⟨fps, rfl, hfps_re⟩ := parse_fingerprints_texts hfps
  obtain ⟨js, rfl, hjs_re, hjs_nodup, -⟩ := parse_jails_texts hjails
  obtain ⟨hdistinct, hresult⟩ := (parse_fingerprints_iff hfps_re hnodup).mp hfps
  obtain ⟨rfl, rfl⟩ := Prod.mk.inj hresult
  -- the jails are a set in the source, so the result is the union
  rw [parse_jails_ok hjs_re hjs_nodup (fun _ _ => Finset.notMem_empty _), Finset.empty_union] at hjails
  cases hjails
  refine ⟨⟨client_id, fps, js⟩, ⟨?_, ?_, ?_⟩, ⟨hre, ?_, hfps_re, ?_, hjs_re, hjs_nodup⟩, hnew, hdistinct,
    rfl⟩
  · exact hid
  · exact hfp_raw
  · exact hjails_raw
  · rintro rfl
    exact hfp_some rfl
  · rintro rfl
    exact hjails_some rfl

/-- Accepted clients are valid one by one, and no two share an id or a fingerprint. -/
theorem parse_clients_reads {items : List Json} : ∀ {index : ℕ} {client_ids fingerprints : List Text}
    {result : List ClientConfig}, client_ids.Nodup → fingerprints.Nodup →
      parse_clients index items client_ids fingerprints = .ok result →
        ∃ clients : List ClientFields, List.Forall₂ Reads items clients ∧
          (∀ client ∈ clients, client.Parsable) ∧ (client_ids ++ clients.map ClientFields.id).Nodup ∧
          (fingerprints ++ clients.flatMap (fun client => client.cert_sha256.map lower)).Nodup ∧
          result = clients.map ClientFields.config := by
  induction items with
  | nil =>
    intro index client_ids fingerprints result hids hfps h
    cases h
    refine ⟨[], .nil, fun _ h => (by cases h), ?_, ?_, rfl⟩
    · rwa [List.map_nil, List.append_nil]
    · rwa [List.flatMap_nil, List.append_nil]
  | cons item items ih =>
    intro index client_ids fingerprints result hids hfps h
    obtain ⟨⟨config, fingerprints'⟩, hclient, h⟩ := bind_eq_ok.mp h
    obtain ⟨configs, hrest, h⟩ := bind_eq_ok.mp h
    cases h
    obtain ⟨client, hreads, hparsable, hnew, hdistinct, hresult⟩ := parse_client_reads hfps hclient
    obtain ⟨rfl, rfl⟩ := Prod.mk.inj hresult
    have hids' : (client_ids ++ [client.id]).Nodup := List.nodup_append.mpr
      ⟨hids, List.nodup_singleton _, by
        rintro a ha b hb rfl
        exact hnew (List.mem_singleton.mp hb ▸ ha)⟩
    obtain ⟨clients, hall, hparsables, hids'', hfps'', rfl⟩ := ih hids' hdistinct hrest
    refine ⟨client :: clients, .cons hreads hall, List.forall_mem_cons.mpr ⟨hparsable, hparsables⟩,
      ?_, ?_, rfl⟩
    · rwa [List.map_cons, ← List.singleton_append, ← List.append_assoc]
    · rwa [List.flatMap_cons, ← List.append_assoc]

/-- The clients of an accepted configuration are what the loop over the raw list gives. -/
theorem parse_config_clients {raw : Json} {config : Config} (h : parse_config raw = .ok config) :
    parse_clients 0 (raw_clients raw) [] [] = .ok config.clients := by
  obtain ⟨obj, hobj, h⟩ := bind_eq_ok.mp h
  obtain ⟨_, -, h⟩ := bind_eq_ok.mp h
  dsimp only at h
  split at h
  swap
  · cases h
  -- the checks before the clients do not change them
  obtain ⟨enabled, -, h⟩ := bind_eq_ok.mp h
  obtain ⟨listen, -, h⟩ := bind_eq_ok.mp h
  obtain ⟨port, -, h⟩ := bind_eq_ok.mp h
  obtain ⟨tls, -, h⟩ := bind_eq_ok.mp h
  split at h
  · cases h
  split at h
  swap
  · cases h
  rename_i clients_raw harray
  obtain ⟨_, hsame, h⟩ := bind_eq_ok.mp h
  cases hsame
  obtain ⟨clients, hclients, h⟩ := bind_eq_ok.mp h
  obtain ⟨limits, -, h⟩ := bind_eq_ok.mp h
  obtain ⟨database, -, h⟩ := bind_eq_ok.mp h
  obtain ⟨whitelist_file, -, h⟩ := bind_eq_ok.mp h
  obtain ⟨enforcement_socket, -, h⟩ := bind_eq_ok.mp h
  obtain ⟨history_days, -, h⟩ := bind_eq_ok.mp h
  cases h
  -- the list the loop reads is the raw one, or empty when it is left out
  have hraw : raw_clients raw = clients_raw := by
    rw [expect_dict_ok hobj]
    unfold get_or at harray
    unfold raw_clients raw_member
    dsimp only
    cases hitem : get_item obj "clients".toList with
    | none =>
      rw [hitem] at harray
      cases harray
      rfl
    | some value =>
      rw [hitem, Option.getD_some] at harray
      subst harray
      rfl
  rw [hraw]
  exact hclients

/-- What `parse_config` has read: the members of the clients, each valid, none twice. -/
theorem parse_config_reads {raw : Json} {config : Config} (h : parse_config raw = .ok config) :
    ∃ clients : List ClientFields, List.Forall₂ Reads (raw_clients raw) clients ∧
      (∀ client ∈ clients, client.Parsable) ∧ (clients.map ClientFields.id).Nodup ∧
      (clients.flatMap (fun client => client.cert_sha256.map lower)).Nodup ∧
      config.clients = clients.map ClientFields.config :=
  parse_clients_reads List.nodup_nil List.nodup_nil (parse_config_clients h)

section lists

variable {items : List Json} {clients : List ClientFields} (h : List.Forall₂ Reads items clients)
include h

theorem filterMap_raw_id : items.filterMap raw_id = clients.map ClientFields.id := by
  induction h with
  | nil => rfl
  | cons hreads _ ih => rw [List.filterMap_cons, hreads.raw_id_eq, List.map_cons, ih]

theorem flatMap_raw_fingerprints :
    items.flatMap raw_fingerprints = clients.flatMap ClientFields.cert_sha256 := by
  induction h with
  | nil => rfl
  | cons hreads _ ih => rw [List.flatMap_cons, List.flatMap_cons, hreads.raw_fingerprints_eq, ih]

theorem map_lower_raw_fingerprints : (items.flatMap raw_fingerprints).map lower =
    clients.flatMap (fun client => client.cert_sha256.map lower) := by
  rw [flatMap_raw_fingerprints h, List.map_flatMap]

theorem reads_getElem? {i : ℕ} {item : Json} {client : ClientFields} (hitem : items[i]? = some item)
    (hclient : clients[i]? = some client) : Reads item client := by
  obtain ⟨hi, rfl⟩ := List.getElem?_eq_some_iff.mp hitem
  obtain ⟨hj, rfl⟩ := List.getElem?_eq_some_iff.mp hclient
  exact List.Forall₂.get h hi hj

end lists

/-- A value in which a fingerprint, an id or a jail of a client repeats is refused. -/
theorem parse_config_refuses {raw : Json} (h : Repeats raw) : ∃ message, parse_config raw = .error message := by
  cases hparse : parse_config raw with
  | error message => exact ⟨message, rfl⟩
  | ok config =>
    obtain ⟨clients, hreads, hparsable, hids, hfps, -⟩ := parse_config_reads hparse
    exfalso
    cases h with
    | fingerprint h =>
      rw [map_lower_raw_fingerprints hreads] at h
      exact h hfps
    | client_id h =>
      rw [filterMap_raw_id hreads] at h
      exact h hids
    | jail item hitem h =>
      obtain ⟨i, hitem⟩ := List.mem_iff_getElem?.mp hitem
      obtain ⟨hi, -⟩ := List.getElem?_eq_some_iff.mp hitem
      rw [hreads.length_eq] at hi
      have hclient : clients[i]? = some clients[i] := List.getElem?_eq_getElem hi
      rw [(reads_getElem? hreads hitem hclient).raw_jails_eq] at h
      exact h (hparsable _ (List.getElem_mem hi)).distinct_jails

/-! ## The map

With distinct fingerprints the dict is the list of its items, and looking a digest up finds the
only client that lists it. -/

/-- The `i`th item of the raw list and the client that was made of it. -/
def Listed (raw : Json) (config : Config) (i : ℕ) (item : Json) (client : ClientConfig) : Prop :=
  (raw_clients raw)[i]? = some item ∧ config.clients[i]? = some client

/-- A SHA-256 digest as `certificate_fingerprint` writes it. -/
def IsDigest (d : Text) : Prop := fingerprint_re d = true ∧ lower d = d

/-- The dict of the configuration tells its clients apart as the raw value says. -/
structure Mapped (raw : Json) (config : Config) : Prop where
  length : config.clients.length = (raw_clients raw).length
  id : ∀ i item client, Listed raw config i item client → raw_member item "id" = some (.str client.id)
  distinct_ids : (config.clients.map ClientConfig.id).Nodup
  fingerprints : ∀ i item client, Listed raw config i item client →
    raw_member item "cert_sha256" = some (.arr ((raw_fingerprints item).map Json.str))
  lookup : ∀ d, IsDigest d → ∀ client, PyDict.get config.clients_by_fingerprint d = some client ↔
    ∃ i item, Listed raw config i item client ∧
      ∃ fingerprint ∈ raw_fingerprints item, lower fingerprint = lower d
  /-- no digest belongs to two clients -/
  one_client : ∀ (i j : ℕ) (item item' : Json), (raw_clients raw)[i]? = some item →
    (raw_clients raw)[j]? = some item' → ∀ fingerprint ∈ raw_fingerprints item, ∀ fingerprint' ∈ raw_fingerprints item',
      lower fingerprint = lower fingerprint' → i = j
  /-- no entry is lost -/
  entries : config.clients_by_fingerprint.length = ((raw_clients raw).flatMap raw_fingerprints).length
  jails : ∀ i item client, Listed raw config i item client →
    raw_member item "allowed_jails" = some (.arr ((raw_jails item).map Json.str)) ∧
      ∀ jail, jail ∈ client.allowed_jails ↔ jail ∈ raw_jails item

section mapped

variable {raw : Json} {config : Config} {clients : List ClientFields}

/-- An item of the list and its client, by what was read of it. -/
theorem listed_iff (hreads : List.Forall₂ Reads (raw_clients raw) clients)
    (hclients : config.clients = clients.map ClientFields.config) {i : ℕ} {item : Json}
    {client : ClientConfig} : Listed raw config i item client ↔
      ∃ fields, (raw_clients raw)[i]? = some item ∧ clients[i]? = some fields ∧ Reads item fields ∧
        client = fields.config := by
  unfold Listed
  rw [hclients, List.getElem?_map, Option.map_eq_some_iff]
  constructor
  · rintro ⟨hitem, fields, hfields, rfl⟩
    exact ⟨fields, hitem, hfields, reads_getElem? hreads hitem hfields, rfl⟩
  · rintro ⟨fields, hitem, hfields, -, rfl⟩
    exact ⟨hitem, fields, hfields, rfl⟩

/-- The keys of the dict are distinct before it is built, so that it keeps every item. -/
theorem clients_by_fingerprint_eq
    (hfps : (clients.flatMap (fun client => client.cert_sha256.map lower)).Nodup)
    (hclients : config.clients = clients.map ClientFields.config) :
    ((config.clients_by_fingerprint).map Prod.fst).Nodup ∧
      config.clients_by_fingerprint = config.clients.flatMap (fun client =>
        client.cert_sha256.map (fun fingerprint => (fingerprint, client))) := by
  have hkeys : ((config.clients.flatMap (fun client =>
      client.cert_sha256.map (fun fingerprint => (fingerprint, client)))).map Prod.fst) =
        clients.flatMap (fun client => client.cert_sha256.map lower) := by
    rw [List.map_flatMap, hclients, List.flatMap_map]
    refine List.flatMap_congr (fun client _ => ?_)
    rw [List.map_map]
    exact List.map_id _
  rw [← hkeys] at hfps
  have heq := PyDict.of_items_eq hfps
  unfold Config.clients_by_fingerprint
  rw [heq]
  exact ⟨hfps, rfl⟩

/-- The dict has a client under the digests of its list and under no others. -/
theorem get_clients_by_fingerprint
    (hfps : (clients.flatMap (fun client => client.cert_sha256.map lower)).Nodup)
    (hclients : config.clients = clients.map ClientFields.config) {d : Text} {client : ClientConfig} :
    PyDict.get config.clients_by_fingerprint d = some client ↔
      ∃ fields ∈ clients, client = fields.config ∧ ∃ fingerprint ∈ fields.cert_sha256, lower fingerprint = d := by
  obtain ⟨hkeys, heq⟩ := clients_by_fingerprint_eq hfps hclients
  rw [PyDict.get_eq_some hkeys, heq, List.mem_flatMap, hclients]
  constructor
  · rintro ⟨client', hmem, hentry⟩
    obtain ⟨fields, hfields, rfl⟩ := List.mem_map.mp hmem
    obtain ⟨digest, hdigest, hsame⟩ := List.mem_map.mp hentry
    obtain ⟨rfl, rfl⟩ := Prod.mk.inj hsame
    obtain ⟨fingerprint, hfingerprint, rfl⟩ := List.mem_map.mp hdigest
    exact ⟨fields, hfields, rfl, fingerprint, hfingerprint, rfl⟩
  · rintro ⟨fields, hfields, rfl, fingerprint, hfingerprint, rfl⟩
    exact ⟨fields.config, List.mem_map_of_mem hfields,
      List.mem_map.mpr ⟨_, List.mem_map_of_mem hfingerprint, rfl⟩⟩

/-- Two clients that list one digest are one, since the dict has only one under it. -/
theorem index_unique (hids : (clients.map ClientFields.id).Nodup)
    (hfps : (clients.flatMap (fun client => client.cert_sha256.map lower)).Nodup)
    (hclients : config.clients = clients.map ClientFields.config) {i j : ℕ}
    {fields fields' : ClientFields} (hi : clients[i]? = some fields) (hj : clients[j]? = some fields')
    {d : Text} (hd : ∃ fingerprint ∈ fields.cert_sha256, lower fingerprint = d)
    (hd' : ∃ fingerprint ∈ fields'.cert_sha256, lower fingerprint = d) : i = j := by
  have hget := (get_clients_by_fingerprint hfps hclients).mpr ⟨fields, List.mem_of_getElem? hi, rfl, hd⟩
  have hget' := (get_clients_by_fingerprint hfps hclients).mpr
    ⟨fields', List.mem_of_getElem? hj, rfl, hd'⟩
  have hid : fields.id = fields'.id :=
    congrArg ClientConfig.id (Option.some.inj (hget.symm.trans hget'))
  have hlt : i < (clients.map ClientFields.id).length := by
    rw [List.length_map]
    exact (List.getElem?_eq_some_iff.mp hi).1
  refine (List.getElem?_inj hlt hids).mp ?_
  rw [List.getElem?_map, List.getElem?_map, hi, hj, Option.map_some, Option.map_some, hid]

end mapped

theorem parse_config_mapped {raw : Json} {config : Config} (h : parse_config raw = .ok config) :
    Mapped raw config := by
  obtain ⟨clients, hreads, hparsable, hids, hfps, hclients⟩ := parse_config_reads h
  refine ⟨?_, ?_, ?_, ?_, ?_, ?_, ?_, ?_⟩
  · rw [hclients, List.length_map, hreads.length_eq]
  · intro i item client hlisted
    obtain ⟨fields, -, -, hread, rfl⟩ := (listed_iff hreads hclients).mp hlisted
    exact hread.id
  · rw [hclients, List.map_map]
    exact hids
  · intro i item client hlisted
    obtain ⟨fields, -, -, hread, rfl⟩ := (listed_iff hreads hclients).mp hlisted
    rw [hread.raw_fingerprints_eq]
    exact hread.fingerprints
  · intro d hd client
    -- the loop keeps its own fields; `listed_iff` takes them back to the raw list
    rw [get_clients_by_fingerprint hfps hclients, hd.2]
    constructor
    · rintro ⟨fields, hfields, rfl, hdigest⟩
      -- the client of a found digest stands somewhere in the list
      obtain ⟨i, hi⟩ := List.mem_iff_getElem?.mp hfields
      have hlt : i < (raw_clients raw).length := by
        rw [hreads.length_eq]
        exact (List.getElem?_eq_some_iff.mp hi).1
      have hitem : (raw_clients raw)[i]? = some (raw_clients raw)[i] := List.getElem?_eq_getElem hlt
      have hread := reads_getElem? hreads hitem hi
      refine ⟨i, _, (listed_iff hreads hclients).mpr ⟨fields, hitem, hi, hread, rfl⟩, ?_⟩
      rw [hread.raw_fingerprints_eq]
      exact hdigest
    · rintro ⟨i, item, hlisted, hdigest⟩
      obtain ⟨fields, -, hi, hread, rfl⟩ := (listed_iff hreads hclients).mp hlisted
      rw [hread.raw_fingerprints_eq] at hdigest
      exact ⟨fields, List.mem_of_getElem? hi, rfl, hdigest⟩
  · intro i j item item' hitem hitem' fingerprint hfp fingerprint' hfp' hsame
    -- both fingerprints are read from accepted clients, and no two of these share one
    have hi : i < clients.length := by
      rw [← hreads.length_eq]
      exact (List.getElem?_eq_some_iff.mp hitem).1
    have hj : j < clients.length := by
      rw [← hreads.length_eq]
      exact (List.getElem?_eq_some_iff.mp hitem').1
    have hget := List.getElem?_eq_getElem hi
    have hget' := List.getElem?_eq_getElem hj
    rw [(reads_getElem? hreads hitem hget).raw_fingerprints_eq] at hfp
    rw [(reads_getElem? hreads hitem' hget').raw_fingerprints_eq] at hfp'
    exact index_unique hids hfps hclients hget hget' ⟨fingerprint, hfp, hsame⟩ ⟨fingerprint', hfp', rfl⟩
  · rw [(clients_by_fingerprint_eq hfps hclients).2, flatMap_raw_fingerprints hreads, hclients,
      List.flatMap_map, List.length_flatMap, List.length_flatMap]
    congr 1
    refine List.map_congr_left (fun fields _ => ?_)
    rw [List.length_map]
    exact List.length_map _
  · intro i item client hlisted
    obtain ⟨fields, -, -, hread, rfl⟩ := (listed_iff hreads hclients).mp hlisted
    rw [hread.raw_jails_eq]
    exact ⟨hread.jails, fun jail => List.mem_toFinset⟩

/-- **A digest belongs to one client.** An accepted configuration maps the digests to the clients
whose lists have them; a repeated fingerprint, id or jail is refused. -/
theorem fingerprint_map_spec (raw : Json) :
    (∀ config, parse_config raw = .ok config → Mapped raw config) ∧
      (Repeats raw → ∃ message, parse_config raw = .error message) :=
  ⟨fun _ h => parse_config_mapped h, parse_config_refuses⟩

/-- Two clients, the first with a fingerprint in upper case. -/
def sample_raw (fingerprint : Char) : Json :=
  .obj [("clients".toList, .arr [
    ClientFields.json ⟨"web".toList, [List.replicate 64 'A', List.replicate 64 'b'], ["sshd".toList]⟩,
    ClientFields.json ⟨"mail".toList, [List.replicate 64 fingerprint], ["postfix".toList]⟩])]

theorem fingerprint_map_spec_sample :
    (∃ config, parse_config (sample_raw 'c') = .ok config ∧ Mapped (sample_raw 'c') config ∧
      (PyDict.get config.clients_by_fingerprint (List.replicate 64 'a')).map ClientConfig.id =
        some "web".toList) ∧
      ∃ message, parse_config (sample_raw 'a') = .error message := by
  have hmapped := (fingerprint_map_spec (sample_raw 'c')).1
  have hlookup : (parse_config (sample_raw 'c')).toOption.bind (fun config =>
      (PyDict.get config.clients_by_fingerprint (List.replicate 64 'a')).map ClientConfig.id) =
        some "web".toList := by decide +kernel
  refine ⟨?_, (fingerprint_map_spec (sample_raw 'a')).2 (.fingerprint (by decide +kernel))⟩
  cases hparse : parse_config (sample_raw 'c') with
  | error message =>
    rw [hparse] at hlookup
    cases hlookup
  | ok config =>
    rw [hparse] at hlookup
    exact ⟨config, rfl, hmapped config hparse, hlookup⟩

end F2bguard.ReceiverConfig
