/-
The runtime configuration that the pfSense package renders for the service.

`f2bguard_runtime_config` takes the entries of the service's schema from the package's
configuration, casts each to its type and keeps of a client what is valid. The configuration
may hold any value at any entry, so the casts of PHP are total here as they are there. What
they do with a double, or with a text that is no number, is left open in the `Library`.
-/
import F2bguard.Alias
import F2bguard.ConfigStore

set_option autoImplicit false

namespace F2bguard.Runtime

open F2bguard.PyText F2bguard.PyJson F2bguard.Php F2bguard.Alias F2bguard.ConfigStore

/-! ## Casts

A cast of PHP has a result for every value. An array is the text `Array`, with a warning the
package does not look at. -/

/-- `(string)$value` -/
def to_text (php : Library) : Value → Text
  | .null => []
  | .bool b => if b then ['1'] else []
  | .int n => dumps_int n
  | .float x => php.of_float x
  | .str s => s
  | .arr _ => "Array".toList

/-- `intval($value)`. Of a text the number at its start counts, of an array whether it has
entries. -/
def to_int (php : Library) : Value → ℤ
  | .null => 0
  | .bool b => if b then 1 else 0
  | .int n => n
  | .float x => dval_to_lval x
  | .str s => php.strtol s
  | .arr items => if items.isEmpty then 0 else 1

/-- The texts of an array that match a pattern, without their keys. -/
def matching (pattern : Text → Bool) (items : Items) : List Text :=
  (array_values items).filterMap (fun item =>
    match item with
    | .str s => if pattern s then some s else none
    | _ => none)

/-! ## Records of pfSense

Aliases, certificates and authorities belong to pfSense; the package only looks them up. -/

/-- An element of `aliases/alias`, `none` when it is no array. -/
def alias_record (php : Library) : Value → Option AliasRecord
  | .arr items => some {
      name := to_text php (php.array_get_path (.arr items) [name "name"] .null)
      type := to_text php (php.array_get_path (.arr items) [name "type"] .null)
      address :=
        match php.array_get_path (.arr items) [name "address"] (.str []) with
        | .arr raw => .list ((array_values raw).map (to_text php))
        | raw => .text (to_text php raw) }
  | _ => none

/-- `config_get_path('aliases/alias', array())` -/
def aliases (php : Library) (root : Value) : List (Option AliasRecord) :=
  (array_values (php.array_get_path root [name "aliases", name "alias"] (.arr [])).items).map
    (alias_record php)

/-- The first record under the path whose `refid` is this. -/
def find_refid (php : Library) (root : Value) (path : String) (refid : Text) : Option Value :=
  (array_values (php.array_get_path root [name path] (.arr [])).items).find? (fun record =>
    record.is_array && to_text php (php.array_get_path record [name "refid"] .null) = refid)

/-- `f2bguard_get_cert`, `none` for `false`. -/
def get_cert (php : Library) (root : Value) (refid : Text) : Option Value :=
  find_refid php root "cert" refid

/-- `f2bguard_get_ca` -/
def get_ca (php : Library) (root : Value) (refid : Text) : Option Value :=
  find_refid php root "ca" refid

/-! ## Clients

The runtime configuration holds valid clients or none: one that is invalid is an error of the
whole list. -/

def is_alnum (c : Char) : Bool :=
  ('A' ≤ c && c ≤ 'Z') || ('a' ≤ c && c ≤ 'z') || ('0' ≤ c && c ≤ '9')

/-- `[A-Za-z0-9_.:-]` -/
def is_identifier_char (c : Char) : Bool := is_alnum c || c ∈ ['_', '.', ':', '-']

def identifier : Text → Bool
  | [] => false
  | c :: cs => is_alnum c && cs.all is_identifier_char && cs.length ≤ 63

/-- `/^[A-Za-z0-9][A-Za-z0-9_.:-]{0,63}$/` -/
def identifier_re : Text → Bool := at_end identifier

def is_hex (c : Char) : Bool :=
  ('a' ≤ c && c ≤ 'f') || ('A' ≤ c && c ≤ 'F') || ('0' ≤ c && c ≤ '9')

def fingerprint (s : Text) : Bool := s.all is_hex && s.length = 64

/-- `/^[a-fA-F0-9]{64}$/` -/
def fingerprint_re : Text → Bool := at_end fingerprint

/-- The record of a client, with the members in this order. -/
def client_record (id : Text) (cert_sha256 allowed_jails : List Text) : Value :=
  .arr [
    (name "id", .str id),
    (name "cert_sha256", of_list (cert_sha256.map Value.str)),
    (name "allowed_jails", of_list (allowed_jails.map Value.str))]

/-- One round of `f2bguard_validate_runtime_clients`. Fingerprints and jails that do not match are
dropped, and a client that is left without either is invalid. -/
def validate_runtime_client (php : Library) (client : Value) : Except Text Value :=
  let id := to_text php (php.array_get_path client [name "id"] (.str []))
  if !client.is_array || !identifier_re id then
    .error "A configured client has an invalid identifier.".toList
  else
    let fingerprints := matching fingerprint_re
      (to_array (php.array_get_path client [name "cert_sha256"] (.arr [])))
    let jails := matching identifier_re
      (to_array (php.array_get_path client [name "allowed_jails"] (.arr [])))
    if fingerprints.isEmpty || jails.isEmpty then
      .error ("Every configured client needs valid certificate fingerprints and at least one " ++
        "allowed jail.").toList
    else .ok (client_record id (array_unique (fingerprints.map strtolower)) (array_unique jails))

/-- `f2bguard_validate_runtime_clients`, with its error. -/
def validate_runtime_clients (php : Library) (clients : Value) : Except Text (List Value) :=
  (array_values (to_array clients)).mapM (validate_runtime_client php)

/-! ## The runtime array

What is written for the service. Paths are constants, whatever is configured; only the entries
below come from the configuration. -/

/-- An entry of `f2bguard_limit_specs`. -/
structure LimitSpec where
  key : String
  default : ℤ
  minimum : ℤ
  maximum : ℤ
  label : String

/-- `f2bguard_limit_specs` -/
def limit_specs : List LimitSpec := [
  ⟨"body_bytes", 1048576, 1024, 4194304, "Maximum request bytes"⟩,
  ⟨"events_per_request", 1000, 1, 10000, "Maximum events per request"⟩,
  ⟨"claims_per_client", 10000, 1, 100000, "Maximum claims per endpoint"⟩,
  ⟨"requests_per_minute", 120, 1, 100000, "Requests per minute per endpoint"⟩]

/-- `$runtime['limits']`: each limit of the configuration, or its default. -/
def runtime_limits (php : Library) (cfg : Items) : Items :=
  limit_specs.foldl (fun limits spec =>
    put limits (name spec.key)
      (.int (to_int php (php.array_get_path (.arr cfg) [name "limits", name spec.key]
        (.int spec.default))))) default_limits

def runtime_tls : Items := [
  (name "cert", .str "/usr/local/etc/f2bguard/tls/server.crt".toList),
  (name "key", .str "/usr/local/etc/f2bguard/tls/server.key".toList),
  (name "ca", .str "/usr/local/etc/f2bguard/tls/ca.crt".toList)]

/-- `$runtime['clients']`: none at all when one of them is invalid. -/
def runtime_clients (php : Library) (cfg : Items) : List Value :=
  match validate_runtime_clients php (php.array_get_path (.arr cfg) [name "clients"] (.arr [])) with
  | .ok clients => clients
  | .error _ => []

/-- `f2bguard_runtime_config`. Nothing is refused here: a value out of range is cast and written,
and the service refuses it when it starts. -/
def runtime_config (php : Library) (cfg : Items) : Items :=
  let runtime := put default_config (name "enabled")
    (.bool (normalize_enabled (php.array_get_path (.arr cfg) [name "enabled"] (.bool false))))
  let runtime := put runtime (name "listen") (.str (to_text php (entry cfg "listen")))
  let runtime := put runtime (name "port") (.int (to_int php (entry cfg "port")))
  let runtime := put runtime (name "limits") (.arr (runtime_limits php cfg))
  let runtime := put runtime (name "history_days")
    (.int (to_int php (php.array_get_path (.arr cfg) [name "history_days"] (.int 90))))
  let runtime := put runtime (name "clients") (of_list (runtime_clients php cfg))
  put runtime (name "tls") (.arr runtime_tls)

/-- The runtime array of a disabled service. All else stays. -/
def disabled_runtime (runtime : Items) : Items := put runtime (name "enabled") (.bool false)

theorem disabled_runtime_enabled (runtime : Items) :
    entry (disabled_runtime runtime) "enabled" = .bool false := by
  rw [entry, disabled_runtime, get_put_self]
  rfl

end F2bguard.Runtime
