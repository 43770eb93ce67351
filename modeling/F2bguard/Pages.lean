/-
What the web pages save.

The general page checks the posted settings and the clients page a posted client; each then
replaces its part of the configuration that `f2bguard_get_config` has read, and stores it.
The checks of a client are those of one record: an id in use is refused, a fingerprint in use
is not.

`Sound` is the invariant of every configuration that a run of saves leaves: its settings are
in their ranges and its clients are well formed, with ids that differ in more than case.

A page shows its errors and stores nothing when there is one. The checks read the posted values
with `array_get_path` and the edits with `??`, and these differ on an empty field when the default
is not null.
-/
import F2bguard.Runtime
import F2bguard.ReceiverConfig

set_option autoImplicit false

namespace F2bguard.Pages

open F2bguard.PyText F2bguard.PyJson F2bguard.Ipaddress F2bguard.Alias F2bguard.ConfigStore
open F2bguard.Runtime F2bguard.ReceiverConfig
open F2bguard.Php hiding is_space

/-- What the pages take from PHP and from pfSense. -/
structure Site where
  inet : Inet
  php : Library
  /-- what `inet_pton` reads is the same address to `ipaddress` -/
  pton_parsed : ∀ {s : Text} {a : IPAddress}, inet.pton s = some a → ip_address s = some a
  /-- the keys of `f2bguard_get_interfaces()` -/
  get_interfaces : Value → List Text
  /-- `sort($jails, SORT_NATURAL | SORT_FLAG_CASE)` -/
  natural_sort : List Text → List Text

/-! ## The general page

All checks are made and all errors shown, so their list is the concatenation of what each adds. -/

/-- `/^[A-Za-z0-9_.:-]+$/` -/
def interface_re : Text → Bool := at_end (fun s => s.all is_identifier_char && s ≠ [])

/-- `/^[0-9]{1,5}$/` -/
def port_re : Text → Bool := at_end (fun s => s.all is_digit && 1 ≤ s.length && s.length ≤ 5)

/-- `is_scalar($value)` -/
def is_scalar : Value → Bool
  | .null => false
  | .arr _ => false
  | _ => true

/-- `array_get_path($post, $key, $default)` -/
def posted (php : Library) (post : Items) (key : String) (default : Value) : Value :=
  php.array_get_path (.arr post) [name key] default

/-- `$_POST[$key] ?? $default` -/
def posted_or (post : Items) (key : String) (default : Value) : Value :=
  match get post (name key) with
  | none => default
  | some .null => default
  | some value => value

/-- A posted number that is not in its range. -/
def out_of_range (php : Library) (raw : Value) (minimum maximum : ℤ) : Bool :=
  !is_scalar raw || !digits_re (to_text php raw) || to_int php raw < minimum ||
    maximum < to_int php raw

/-- `$errors[] = $message` when the test fails. -/
def error_if (test : Bool) (message : Text) : List Text := if test then [message] else []

/-- A record has a text that is not empty at the key. -/
def has (record : Option Value) (key : String) : Bool :=
  match record with
  | none => false
  | some record => !is_empty (entry record.items key)

/-- `f2bguard_validate_general`, as its errors. The address has to be one PHP can parse, and two
spellings of the unspecified one are refused. Certificates and interfaces are asked for only when
the service is enabled; the alias, when there is one, has to resolve. -/
def validate_general (site : Site) (root : Value) (post : Items) : List Text :=
  let listen := trim (to_text site.php (posted site.php post "listen" (.str [])))
  let raw_port := posted site.php post "port" (.str [])
  let port := to_int site.php raw_port
  let enabled := !is_empty (entry post "enabled")
  let cert := get_cert site.php root (to_text site.php (posted site.php post "tls_cert_ref" (.str [])))
  let ca := get_ca site.php root (to_text site.php (posted site.php post "tls_ca_ref" (.str [])))
  let interfaces := matching interface_re (to_array (posted site.php post "wan_interfaces" (.arr [])))
  let whitelist_alias := trim (to_text site.php (posted site.php post "whitelist_alias" (.str [])))
  error_if ((site.inet.pton listen).isNone || listen = "0.0.0.0".toList || listen = "::".toList)
    ("Listen address must be one explicit local IPv4 or IPv6 address; wildcard addresses are not " ++
      "allowed.").toList ++
  error_if (!is_scalar raw_port || !port_re (to_text site.php raw_port))
    "Port must be an integer.".toList ++
  error_if (port < 1024 || 65535 < port)
    ("Listen port must be between 1024 and 65535 because the backend runs as the unprivileged " ++
      "f2bguard user.").toList ++
  limit_specs.flatMap (fun spec =>
    error_if (out_of_range site.php (posted site.php post spec.key (.int spec.default)) spec.minimum
        spec.maximum)
      (spec.label.toList ++ " must be an integer between ".toList ++ dumps_int spec.minimum ++
        " and ".toList ++ dumps_int spec.maximum ++ ['.'])) ++
  error_if (out_of_range site.php (posted site.php post "history_days" (.int 90)) 1 3650)
    "History retention must be between 1 and 3650 days.".toList ++
  error_if (enabled && (!has cert "crt" || !has cert "prv"))
    "An enabled service requires a certificate with a private key from Certificate Manager.".toList ++
  error_if (enabled && !has ca "crt")
    "An enabled service requires a trusted CA from Certificate Manager.".toList ++
  interfaces.flatMap (fun interface =>
    error_if (interface ∉ site.get_interfaces root)
      ("Selected interface ".toList ++ htmlspecialchars interface ++
        " is not configured on this firewall.".toList)) ++
  error_if (enabled && interfaces.isEmpty)
    "Select at least one WAN interface before enabling enforcement.".toList ++
  (if whitelist_alias = [] then []
  else
    match get_alias_addresses site.inet (aliases site.php root) whitelist_alias with
    | .ok _ => []
    | .error error => [error])

/-- `$cfg['limits']` after the page has set each of the limits. -/
def edited_limits (php : Library) (cfg post : Items) : Items :=
  limit_specs.foldl (fun limits spec =>
    put limits (name spec.key) (.int (to_int php (posted_or post spec.key (.int spec.default)))))
    (entry cfg "limits").items

/-- A posted text. -/
def trimmed (php : Library) (post : Items) (key : String) : Text :=
  trim (to_text php (posted_or post key (.str [])))

/-- What the general page replaces. -/
def general_edit (php : Library) (cfg post : Items) : Edit where
  general := [
    (.listen, .str (trim (to_text php (entry post "listen")))),
    (.port, .int (to_int php (entry post "port"))),
    (.limits, .arr (edited_limits php cfg post)),
    (.history_days, .int (to_int php (posted_or post "history_days" (.int 90)))),
    (.tls_cert_ref, .str (trimmed php post "tls_cert_ref")),
    (.tls_ca_ref, .str (trimmed php post "tls_ca_ref")),
    (.whitelist_alias, .str (trimmed php post "whitelist_alias"))]
  enabled := some (!is_empty (entry post "enabled"))
  wan_interfaces := some ((matching interface_re
    (to_array (posted_or post "wan_interfaces" (.str [])))).map Value.str)

/-- The general page, with its errors. The edit takes the posted values again and does not use
what the checks have read. -/
def save_general (site : Site) (root : Value) (post : Items) : Except (List Text) Edit :=
  if validate_general site root post = [] then
    .ok (general_edit site.php (get_config site.php root) post)
  else .error (validate_general site root post)

/-! ## The clients page

A client is saved at a place of the list, or after its end. The checks are about the posted client
and, for the id only, about the other clients of the list. -/

/-- `f2bguard_validate_identifier`, as its errors. -/
def validate_identifier (value : Text) (label : String) : List Text :=
  error_if (!identifier_re value)
    (label.toList ++ " must contain 1-64 letters, digits, dot, underscore, colon, or hyphen.".toList)

/-- `preg_split('/[\s,]+/', trim($text), -1, PREG_SPLIT_NO_EMPTY)` -/
def posted_list (text : Text) : List Text :=
  preg_split (fun c => Php.is_space c || c = ',') (trim text)

/-- `f2bguard_validate_client`, as its errors. Repeated fingerprints and jails are no error; they
are dropped when the record is built. -/
def validate_client (php : Library) (post : Items) : List Text :=
  let fingerprints := posted_list (to_text php (posted php post "cert_sha256" (.str [])))
  let jails := posted_list (to_text php (posted php post "allowed_jails" (.str [])))
  validate_identifier (trim (to_text php (posted php post "client_id" (.str [])))) "Client ID" ++
  error_if fingerprints.isEmpty
    "Enter at least one SHA-256 client certificate fingerprint.".toList ++
  fingerprints.flatMap (fun fingerprint =>
    error_if (!Runtime.fingerprint_re fingerprint)
      ("Client fingerprint \"".toList ++ htmlspecialchars fingerprint ++
        "\" must be exactly 64 hexadecimal characters.".toList)) ++
  error_if jails.isEmpty "Each client must have at least one allowed jail.".toList ++
  jails.flatMap (fun jail => validate_identifier jail "Jail")

/-- The clients of the configuration. -/
def page_clients (cfg : Items) : List Value := array_values (entry cfg "clients").items

/-- `$index`, `none` for -1. -/
def posted_index (php : Library) (post : Items) : Option ℕ :=
  match get post (name "index") with
  | none => none
  | some value =>
      let text := to_text php value
      if text ≠ [] ∧ text.all is_digit then some (intval text) else none

/-- The clients at other places than the index whose id is this one, up to case. -/
def in_use (php : Library) (clients : List Value) (index : Option ℕ) (id : Text) : List Value :=
  (clients.zipIdx.filter (fun p => some p.2 ≠ index ∧
    strtolower (to_text php (php.array_get_path p.1 [name "id"] (.str []))) = strtolower id)).map
    Prod.fst

/-- The record of a posted client. -/
def posted_record (php : Library) (post : Items) : Value :=
  client_record (trimmed php post "client_id")
    (array_unique ((posted_list (to_text php (entry post "cert_sha256"))).map strtolower))
    (array_unique (posted_list (to_text php (posted_or post "allowed_jails" (.str [])))))

/-- `$index >= 0 && isset($clients[$index])` -/
def is_set (clients : List Value) (index : Option ℕ) : Bool :=
  match index.bind (fun i : ℕ => clients[i]?) with
  | none => false
  | some .null => false
  | some _ => true

/-- `$clients[$index] = $record` when there is one at the index, else `$clients[] = $record`. -/
def place (clients : List Value) (index : Option ℕ) (record : Value) : List Value :=
  if is_set clients index then clients.set (index.getD 0) record else clients ++ [record]

/-- The save action of the clients page, with its errors. Whether a fingerprint of the posted
client belongs to another one is not asked. -/
def save_client (site : Site) (root : Value) (post : Items) : Except (List Text) Edit :=
  let clients := page_clients (get_config site.php root)
  let index := posted_index site.php post
  let errors := validate_client site.php post ++
    (in_use site.php clients index (trimmed site.php post "client_id")).map
      (fun _ => "Client ID is already in use.".toList)
  if errors = [] then
    .ok { clients := some (place clients index (posted_record site.php post)) }
  else .error errors

/-- The delete action: without an index that exists it does nothing. -/
def delete_client (site : Site) (root : Value) (post : Items) : Except (List Text) Edit :=
  let clients := page_clients (get_config site.php root)
  let index := posted_index site.php post
  if is_set clients index then .ok { clients := some (clients.eraseIdx (index.getD 0)) }
  else .error []

/-! ## The jails page

The catalogue of jails is for the pages only: it offers names and restricts nobody. The service
never reads it. -/

/-- The catalogue of jails, of which what is no identifier is left out. -/
def page_jails (cfg : Items) : List Text := matching identifier_re (to_array (entry cfg "jails"))

/-- The save action of the jails page. The list is sorted for the eye. -/
def save_jail (site : Site) (root : Value) (post : Items) : Except (List Text) Edit :=
  let jails := page_jails (get_config site.php root)
  let jail := trimmed site.php post "jail"
  let errors := validate_identifier jail "Jail" ++
    error_if (jail ∈ jails) "Jail is already configured.".toList
  if errors = [] then
    .ok { jails := some ((site.natural_sort (jails ++ [jail])).map Value.str) }
  else .error errors

/-- The delete action of the jails page. -/
def delete_jail (site : Site) (root : Value) (post : Items) : Except (List Text) Edit :=
  let jail := trimmed site.php post "jail"
  .ok { jails := some (((page_jails (get_config site.php root)).filter
    (fun item => item ≠ jail)).map Value.str) }

/-! ## Runs

A run is any sequence of forms that were accepted and stored, with changes of other pages of
pfSense in between. -/

/-- A form that is posted to a page. -/
inductive Request
  | save_general (post : Items)
  | save_client (post : Items)
  | delete_client (post : Items)
  | save_jail (post : Items)
  | delete_jail (post : Items)

/-- What a form replaces in the configuration, or its errors. -/
def Request.edit (site : Site) (root : Value) : Request → Except (List Text) Edit
  | .save_general post => Pages.save_general site root post
  | .save_client post => Pages.save_client site root post
  | .delete_client post => Pages.delete_client site root post
  | .save_jail post => Pages.save_jail site root post
  | .delete_jail post => Pages.delete_jail site root post

/-- A page that accepts its form stores the configuration. -/
def page (site : Site) (root : Value) (request : Request) : Option Value :=
  match request.edit site root with
  | .error _ => none
  | .ok edit =>
      match save site.php root edit with
      | (true, root) => some root
      | (false, _) => none

/-- `installedpackages/f2bguard` -/
def package_config (root : Value) : Option Value :=
  value_at root [name "installedpackages", name "f2bguard"]

/-- The configurations that saves lead to, from one without the package. Other pages of pfSense may
change the rest of the configuration in between, but they put nothing in the way of the package's
entry: `installedpackages` stays an array. -/
inductive Reachable (site : Site) : Value → Prop
  | fresh {root : Value} (h : package_config root = none) (hroot : Unblocked root config_0_path) :
      Reachable site root
  | page {root root' : Value} (request : Request) (h : Reachable site root)
      (hpage : page site root request = some root') : Reachable site root'
  | other {root root' : Value} (h : Reachable site root)
      (hother : package_config root' = package_config root)
      (hroot : Unblocked root' config_0_path) : Reachable site root'

end F2bguard.Pages
