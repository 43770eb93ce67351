/-
The pfSense package brings the service to the stored configuration, or stops it.

`f2bguard_resync_config` renders the whitelist, the certificates and the runtime
configuration and restarts the service; on each filter generation
`f2bguard_refresh_whitelist` renders the whitelist alone. What either does to the system is a
trace of writes and commands, whose outcomes are an arbitrary `Machine`.

An update that fails should leave the service stopped and `config.json` disabled. It does so
unless the enable flag cannot be written, or the write of `config.json` itself fails
(`fails_closed_iff`): the functions return there before they have stopped anything.
-/
import F2bguard.Runtime

set_option autoImplicit false

namespace F2bguard.Service

open F2bguard.PyText F2bguard.PyJson F2bguard.Php F2bguard.ConfigStore F2bguard.Runtime
open F2bguard.Alias hiding refresh_whitelist

/-! ## The system

The package acts by two functions of pfSense, one that writes a file and one that runs a command.
What happens is the trace of these calls with their outcomes; nothing else of the system is looked
at. -/

/-- The files the package writes with `f2bguard_atomic_write`. -/
inductive File
  | whitelist
  | server_crt
  | server_key
  | ca_crt
  | config_json
  | rc_conf
  deriving DecidableEq, Repr

namespace File

def path : File → String
  | whitelist => "/usr/local/etc/f2bguard/whitelist.txt"
  | server_crt => "/usr/local/etc/f2bguard/tls/server.crt"
  | server_key => "/usr/local/etc/f2bguard/tls/server.key"
  | ca_crt => "/usr/local/etc/f2bguard/tls/ca.crt"
  | config_json => "/usr/local/etc/f2bguard/config.json"
  | rc_conf => "/usr/local/etc/rc.conf.d/f2bguard"

def mode : File → ℕ
  | rc_conf => 0o644
  | _ => 0o640

def group : File → String
  | rc_conf => "wheel"
  | _ => "f2bguard"

end File

/-- The commands of `f2bguard_apply_service_state`. -/
inductive Command
  | restart
  | stop
  | filter_configure
  deriving DecidableEq, Repr

def Command.line : Command → String
  | restart => "/usr/sbin/service f2bguard restart"
  | stop => "/usr/sbin/service f2bguard stop"
  | filter_configure => "/etc/rc.filter_configure_sync"

/-- `$enabled ? '… restart' : '… stop'` -/
def service_command (enabled : Bool) : Command := if enabled then .restart else .stop

/-- How `f2bguard_atomic_write` ends: `true`; `false` before the file was renamed into place; or
`false` after that, when its mode or owner could not be set. -/
inductive Outcome
  | written
  | kept
  | replaced
  deriving DecidableEq, Repr

/-- A write of a file, a rewrite of `config.json` that could not be encoded, or a command that was
run. -/
inductive Event
  | write (file : File) (contents : Text) (outcome : Outcome)
  | encode_failed (runtime : Items)
  | exec (command : Command) (rc : Option ℤ)

/-- What the functions ask of PHP and of the system. The outcome of a write is that of the
`n`-th write of the file in the call, the status of a command that of the `n`-th command, `none`
for `false`. -/
structure Machine where
  inet : Inet
  php : Library
  /-- `base64_decode($text, true)` -/
  base64_decode : Text → Option Text
  /-- `json_encode($value, JSON_PRETTY_PRINT | JSON_UNESCAPED_SLASHES)` -/
  json_encode : Value → Option Text
  writes : File → ℕ → Outcome
  mwexec : ℕ → Option ℤ

/-- What a call has done so far, the last event first, and `f2bguard_last_error`. -/
structure World where
  trace : List Event := []
  last_error : Text := []

def Event.is_write (file : File) : Event → Bool
  | .write f _ _ => f = file
  | _ => false

def Event.is_exec : Event → Bool
  | .exec _ _ => true
  | _ => false

variable (m : Machine)

/-- `f2bguard_atomic_write`. It reports a failure also where the new file is in place already and
only its mode or owner could not be set. -/
def atomic_write (file : File) (contents : Text) (w : World) : Bool × World :=
  let outcome := m.writes file (w.trace.countP (Event.is_write file))
  (outcome = .written, { w with trace := .write file contents outcome :: w.trace })

/-- `mwexec($command, true)` -/
def mwexec (command : Command) (w : World) : Option ℤ × World :=
  let rc := m.mwexec (w.trace.countP Event.is_exec)
  (rc, { w with trace := .exec command rc :: w.trace })

/-- `$rc === false || intval($rc) !== 0`: anything but the status zero. -/
def failed (rc : Option ℤ) : Bool := rc ≠ some 0

/-- `f2bguard_html((string)$rc)` -/
def rc_text : Option ℤ → Text
  | none => []
  | some n => htmlspecialchars (dumps_int n)

/-! ## The service state

The enable flag is what `rc` looks at when the machine starts; the command acts at once. The flag
is written first. -/

def rc_conf_contents (enabled : Bool) : Text :=
  "f2bguard_enable=\"".toList ++ (if enabled then "YES".toList else "NO".toList) ++ "\"\n".toList

/-- What follows a command that failed: the flag is cleared and the service stopped. Whether
either succeeds is not looked at any more. -/
def force_stop (message : Text) (w : World) : Bool × World :=
  let w := { w with last_error := message }
  let w := (atomic_write m .rc_conf (rc_conf_contents false) w).2
  (false, (mwexec m .stop w).2)

/-- `f2bguard_apply_service_state`. When the flag cannot be written it returns at once, and no
command is run, not even the one that stops the service. A command that fails ends in
`force_stop`. -/
def apply_service_state (enabled reload_filter : Bool) (w : World) : Bool × World :=
  let (flagged, w) := atomic_write m .rc_conf (rc_conf_contents enabled) w
  if !flagged then
    (false, { w with
      last_error := "Unable to write the pfSense service enable state.".toList })
  else
    let (service_rc, w) := mwexec m (service_command enabled) w
    if failed service_rc then
      force_stop m ("The f2bguard service command failed with status ".toList ++
        rc_text service_rc ++ ['.']) w
    else if reload_filter then
      let (filter_rc, w) := mwexec m .filter_configure w
      if failed filter_rc then
        force_stop m ("The pfSense filter reload failed with status ".toList ++
          rc_text filter_rc ++ ['.']) w
      else (true, w)
    else (true, w)

/-- The rewrite of `config.json` for a disabled service. -/
def write_disabled (runtime : Items) (w : World) : Bool × World :=
  match m.json_encode (.arr (disabled_runtime runtime)) with
  | none => (false, { w with trace := .encode_failed (disabled_runtime runtime) :: w.trace })
  | some runtime_json => atomic_write m .config_json (runtime_json ++ ['\n']) w

/-- `f2bguard_disable_runtime`. It always returns `false`. The configuration is rewritten with the
service disabled, and the service is stopped if the caller asks for it, whether or not the
rewriting succeeded. -/
def disable_runtime (cfg : Items) (error : Text) (apply_service reload_filter : Bool) (w : World) :
    Bool × World :=
  let w := { w with last_error := error }
  let (written, w) := write_disabled m (runtime_config m.php cfg) w
  let w :=
    if !written then
      { w with last_error := w.last_error ++
          " The disabled runtime configuration could not be written.".toList }
    else w
  if apply_service then (false, (apply_service_state m false reload_filter w).2) else (false, w)

/-! ## Resynchronisation

The functions go through their steps in order, and a step that fails ends the call. The ways to
end differ in whether the runtime is disabled then. -/

/-- `(string)array_get_path($record, $key, '')` of a record or `false`. -/
def record_text (php : Library) (record : Option Value) (key : String) : Text :=
  match record with
  | none => []
  | some record => to_text php (php.array_get_path record [name key] (.str []))

/-- `f2bguard_certificate_material_available` -/
def certificate_material_available (php : Library) (cfg : Items) (cert ca : Option Value) : Bool :=
  !normalize_enabled (php.array_get_path (.arr cfg) [name "enabled"] (.bool false)) ||
    (record_text php cert "crt" ≠ [] && record_text php cert "prv" ≠ [] &&
      record_text php ca "crt" ≠ [])

/-- The loop over the certificate, its key and the CA; `false` where it disables the runtime. An
empty text is passed over, so that a disabled service needs no certificate. -/
def write_pems : List (Option Value × String × File) → World → Bool × World
  | [], w => (true, w)
  | (record, key, file) :: pems, w =>
      if record_text m.php record key = [] then write_pems pems w
      else
        match m.base64_decode (record_text m.php record key) with
        | none => (false, w)
        | some decoded =>
            let (written, w) := atomic_write m file decoded w
            if written then write_pems pems w else (false, w)

/-- The name of the whitelist alias. -/
def whitelist_alias (cfg : Items) : Text :=
  to_text m.php (m.php.array_get_path (.arr cfg) [name "whitelist_alias"] (.str []))

/-- The selected certificate. -/
def selected_cert (root : Value) (cfg : Items) : Option Value :=
  get_cert m.php root
    (to_text m.php (m.php.array_get_path (.arr cfg) [name "tls_cert_ref"] (.str [])))

/-- The selected CA. -/
def selected_ca (root : Value) (cfg : Items) : Option Value :=
  get_ca m.php root (to_text m.php (m.php.array_get_path (.arr cfg) [name "tls_ca_ref"] (.str [])))

def pems (cert ca : Option Value) : List (Option Value × String × File) :=
  [(cert, "crt", .server_crt), (cert, "prv", .server_key), (ca, "crt", .ca_crt)]

/-- The end of `f2bguard_resync_config`: the runtime configuration and the service. When
`config.json` cannot be written it returns without a command, and the service runs on with the old
one. When the service state cannot be applied, `config.json` is rewritten as disabled. -/
def install_runtime (cfg : Items) (apply_service : Bool) (w : World) : Bool × World :=
  let runtime := runtime_config m.php cfg
  let (written, w) := atomic_write m .config_json
    ((m.json_encode (.arr runtime)).getD [] ++ ['\n']) w
  if !written then
    (false, { w with last_error := "Unable to write the root-owned runtime configuration.".toList })
  else if !apply_service then (true, w)
  else
    let (applied, w) := apply_service_state m (!is_empty (entry runtime "enabled")) true w
    if applied then (true, w) else (false, (write_disabled m runtime w).2)

/-- `f2bguard_resync_config`. In front of the end stand the checks of the configuration, the
clients and the alias, the write of the whitelist, the check of the certificates and their writes;
each disables the runtime when it fails. -/
def resync_config (root : Value) (apply_service : Bool) (w : World) : Bool × World :=
  let cfg := get_config m.php root
  let disable := fun error w => disable_runtime m cfg error apply_service true w
  if !is_empty (entry cfg "_config_error") then
    disable (to_text m.php (entry cfg "_config_error")) w
  else
    match validate_runtime_clients m.php (m.php.array_get_path (.arr cfg) [name "clients"] (.arr [])) with
    | .error error => disable error w
    | .ok _ =>
        match get_alias_addresses m.inet (aliases m.php root)
            (whitelist_alias m cfg) with
        | .error error => disable error w
        | .ok whitelist =>
            let (written, w) := atomic_write m .whitelist (resync_whitelist whitelist) w
            if !written then
              disable "Unable to write the root-owned whitelist snapshot.".toList w
            else
              let cert := selected_cert m root cfg
              let ca := selected_ca m root cfg
              if !certificate_material_available m.php cfg cert ca then
                disable ("The enabled service references a missing Certificate Manager " ++
                  "certificate, private key, or CA.").toList w
              else
                let (written, w) := write_pems m (pems cert ca) w
                if !written then
                  disable ("Unable to write a Certificate Manager PEM with root ownership and " ++
                    "service-readable permissions.").toList w
                else install_runtime m cfg apply_service w

/-- `f2bguard_refresh_whitelist`. On success nothing is restarted: the server reads the whitelist
at each enforcement. -/
def refresh_whitelist (root : Value) (cfg : Items) (w : World) : Bool × World :=
  match get_alias_addresses m.inet (aliases m.php root)
      (whitelist_alias m cfg) with
  | .error error => disable_runtime m cfg error true false w
  | .ok entries =>
      let (written, w) := atomic_write m .whitelist (Alias.refresh_whitelist entries) w
      if written then (true, w)
      else disable_runtime m cfg "Unable to refresh the trusted whitelist.".toList true false w

/-! ## Failing closed

What "closed" means is said about the trace: the last command to the service stopped it, and the
last thing done about `config.json` was to disable it. -/

/-- The command that starts or stops the service. -/
def Event.service_command : Event → Option Command
  | .exec .restart _ => some .restart
  | .exec .stop _ => some .stop
  | _ => none

/-- The last of the commands that start or stop the service. -/
def last_service_command (trace : List Event) : Option Command :=
  trace.findSome? Event.service_command

/-- An event about `config.json`: a write, or the rewrite that could not be encoded. -/
def Event.is_config : Event → Bool
  | .write .config_json _ _ => true
  | .encode_failed _ => true
  | _ => false

/-- `config.json` is written with `enabled=false`, or that is attempted and fails. -/
def Disables : Event → Prop
  | .write .config_json contents _ =>
      ∃ runtime runtime_json, entry runtime "enabled" = .bool false ∧
        m.json_encode (.arr runtime) = some runtime_json ∧ contents = runtime_json ++ ['\n']
  | .encode_failed runtime => entry runtime "enabled" = .bool false
  | _ => False

/-- A call that returns `false` has stopped the service after any restart, and the last it did
about `config.json` was to disable it. -/
def FailsClosed (call : Bool × World) : Prop :=
  call.1 = false → last_service_command call.2.trace = some .stop ∧
    ∃ e, call.2.trace.find? Event.is_config = some e ∧ Disables m e

/-- The aliases do not resolve. -/
def AliasFails (root : Value) (cfg : Items) : Prop :=
  ∃ error, get_alias_addresses m.inet (aliases m.php root) (whitelist_alias m cfg) = .error error

/-- When the alias does not resolve, the whitelist is not written. -/
def KeepsWhitelist (root : Value) (cfg : Items) (call : Bool × World) : Prop :=
  AliasFails m root cfg → ∀ e ∈ call.2.trace, e.is_write .whitelist = false

/-- The certificate, its key or the CA is empty, or it is decoded and written. -/
def PemWritten (pem : Option Value × String × File) : Prop :=
  record_text m.php pem.1 pem.2.1 = [] ∨
    (m.base64_decode (record_text m.php pem.1 pem.2.1)).isSome ∧ m.writes pem.2.2 0 = .written

/-- Nothing before the write of the runtime configuration fails. -/
structure Ready (root : Value) : Prop where
  no_error : is_empty (entry (get_config m.php root) "_config_error") = true
  clients : ∃ clients, validate_runtime_clients m.php
    (m.php.array_get_path (.arr (get_config m.php root)) [name "clients"] (.arr [])) = .ok clients
  resolved : ¬ AliasFails m root (get_config m.php root)
  whitelist : m.writes .whitelist 0 = .written
  material : certificate_material_available m.php (get_config m.php root)
    (selected_cert m root (get_config m.php root)) (selected_ca m root (get_config m.php root))
  pems : ∀ pem ∈ pems (selected_cert m root (get_config m.php root))
    (selected_ca m root (get_config m.php root)), PemWritten m pem

/-! ## What a call adds to the trace

A trace only grows. For each function it is said which events it adds, and from that which events
come last. -/

/-- `w'` comes after `w`, and every event since satisfies `P`. -/
def Adds (P : Event → Prop) (w w' : World) : Prop :=
  ∃ later, w'.trace = later ++ w.trace ∧ ∀ e ∈ later, P e

namespace Adds

variable {P : Event → Prop} {w w' w'' : World}

theorem unchanged (h : w'.trace = w.trace) : Adds P w w' := ⟨[], h, by simp⟩

theorem single {e : Event} (h : w'.trace = e :: w.trace) (he : P e) : Adds P w w' :=
  ⟨[e], h, by simpa using he⟩

theorem trans (h : Adds P w w') (h' : Adds P w' w'') : Adds P w w'' := by
  obtain ⟨later, heq, hall⟩ := h
  obtain ⟨later', heq', hall'⟩ := h'
  refine ⟨later' ++ later, by rw [heq', heq, List.append_assoc], ?_⟩
  intro e he
  rcases List.mem_append.mp he with he | he
  · exact hall' e he
  · exact hall e he

theorem mono {Q : Event → Prop} (h : Adds P w w') (hpq : ∀ e, P e → Q e) : Adds Q w w' := by
  obtain ⟨later, heq, hall⟩ := h
  exact ⟨later, heq, fun e he => hpq e (hall e he)⟩

theorem mem_iff {f : Event → Bool} (h : Adds P w w') (hp : ∀ e, P e → f e = false) :
    (∀ e ∈ w'.trace, f e = false) ↔ ∀ e ∈ w.trace, f e = false := by
  obtain ⟨later, heq, hall⟩ := h
  rw [heq]
  constructor
  · intro hfalse e he
    exact hfalse e (List.mem_append_right _ he)
  · intro hfalse e he
    rcases List.mem_append.mp he with he | he
    · exact hp e (hall e he)
    · exact hfalse e he

theorem countP_eq {f : Event → Bool} (h : Adds P w w') (hp : ∀ e, P e → f e = false) :
    w'.trace.countP f = w.trace.countP f := by
  obtain ⟨later, heq, hall⟩ := h
  rw [heq, List.countP_append, List.countP_eq_zero.mpr, Nat.zero_add]
  intro e he
  rw [hp e (hall e he)]
  exact Bool.false_ne_true

theorem find_eq {f : Event → Bool} (h : Adds P w w') (hp : ∀ e, P e → f e = false) :
    w'.trace.find? f = w.trace.find? f := by
  obtain ⟨later, heq, hall⟩ := h
  rw [heq, List.find?_append, List.find?_eq_none.mpr, Option.none_or]
  intro e he
  rw [hp e (hall e he)]
  exact Bool.false_ne_true

theorem last_service_command_eq (h : Adds P w w') (hp : ∀ e, P e → e.service_command = none) :
    last_service_command w'.trace = last_service_command w.trace := by
  obtain ⟨later, heq, hall⟩ := h
  have hnone : later.findSome? Event.service_command = none :=
    List.findSome?_eq_none_iff.mpr (fun e he => hp e (hall e he))
  rw [last_service_command, heq, List.findSome?_append, hnone]
  rfl

end Adds

variable {m}

theorem atomic_write_adds (file : File) (contents : Text) (w : World) :
    Adds (fun e => e.is_write file) w (atomic_write m file contents w).2 :=
  .single rfl (decide_eq_true rfl)

theorem atomic_write_iff {file : File} (contents : Text) {w : World}
    (hfirst : w.trace.countP (Event.is_write file) = 0) :
    (atomic_write m file contents w).1 = true ↔ m.writes file 0 = .written := by
  rw [atomic_write]
  dsimp only
  rw [hfirst, decide_eq_true_eq]

/-- A write of the enable flag, or a command. -/
def Event.of_state (e : Event) : Prop := e.is_write .rc_conf ∨ e.is_exec

theorem of_state_not_config {e : Event} (h : e.of_state) : e.is_config = false := by
  cases e with
  | write file contents outcome =>
    rcases h with h | h
    · rw [Event.is_write, decide_eq_true_eq] at h
      subst h
      rfl
    · cases h
  | encode_failed runtime => rcases h with h | h <;> cases h
  | exec command rc => rfl

theorem of_state_not_write {e : Event} {file : File} (h : e.of_state) (hfile : file ≠ .rc_conf) :
    e.is_write file = false := by
  cases e with
  | write f contents outcome =>
    rcases h with h | h
    · rw [Event.is_write, decide_eq_true_eq] at h
      subst h
      exact decide_eq_false (fun heq => hfile heq.symm)
    · cases h
  | encode_failed runtime => rfl
  | exec command rc => rfl

theorem mwexec_adds (command : Command) (w : World) :
    Adds Event.of_state w (mwexec m command w).2 :=
  .single rfl (.inr rfl)

theorem write_flag_adds (enabled : Bool) (w : World) :
    Adds Event.of_state w (atomic_write m .rc_conf (rc_conf_contents enabled) w).2 :=
  (atomic_write_adds .rc_conf _ w).mono (fun _ h => .inl h)

theorem force_stop_adds (message : Text) (w : World) :
    Adds Event.of_state w (force_stop m message w).2 :=
  (Adds.unchanged rfl).trans ((write_flag_adds false _).trans (mwexec_adds .stop _))

theorem force_stop_stops (message : Text) (w : World) :
    (force_stop m message w).1 = false ∧
      last_service_command (force_stop m message w).2.trace = some .stop :=
  ⟨rfl, rfl⟩

theorem apply_service_state_adds (enabled reload_filter : Bool) (w : World) :
    Adds Event.of_state w (apply_service_state m enabled reload_filter w).2 := by
  have hflag := write_flag_adds (m := m) enabled w
  unfold apply_service_state
  dsimp only
  split
  · exact hflag.trans (.unchanged rfl)
  have hcommand := hflag.trans (mwexec_adds (m := m) (service_command enabled) _)
  split
  · exact hcommand.trans (force_stop_adds _ _)
  split
  · have hfilter := hcommand.trans (mwexec_adds (m := m) .filter_configure _)
    split
    · exact hfilter.trans (force_stop_adds _ _)
    · exact hfilter
  · exact hcommand

/-- Without the enable flag nothing is commanded. -/
theorem apply_unflagged {enabled reload_filter : Bool} {w : World}
    (hflag : (atomic_write m .rc_conf (rc_conf_contents enabled) w).1 = false) :
    (apply_service_state m enabled reload_filter w).1 = false ∧
      last_service_command (apply_service_state m enabled reload_filter w).2.trace =
        last_service_command w.trace := by
  unfold apply_service_state
  dsimp only
  rw [hflag]
  exact ⟨rfl, rfl⟩

/-- With the flag written, the service is stopped when something fails or it was to be stopped. -/
theorem apply_flagged {enabled reload_filter : Bool} {w : World}
    (hflag : (atomic_write m .rc_conf (rc_conf_contents enabled) w).1 = true)
    (h : (apply_service_state m enabled reload_filter w).1 = false ∨ enabled = false) :
    last_service_command (apply_service_state m enabled reload_filter w).2.trace = some .stop := by
  revert h
  unfold apply_service_state
  dsimp only
  rw [hflag]
  intro h
  rw [if_neg (by simp)] at h ⊢
  split
  · exact (force_stop_stops _ _).2
  rename_i hservice
  rw [if_neg hservice] at h
  split
  · rename_i hreload
    rw [if_pos hreload] at h
    split
    · exact (force_stop_stops _ _).2
    · rename_i hfilter
      rw [if_neg hfilter] at h
      have hstop : enabled = false := h.resolve_left (fun h => (by cases h))
      subst hstop
      rfl
  · rename_i hreload
    rw [if_neg hreload] at h
    have hstop : enabled = false := h.resolve_left (fun h => (by cases h))
    subst hstop
    rfl

/-- A write or a failed encoding of `config.json`. -/
theorem write_disabled_adds (runtime : Items) (w : World) :
    Adds (fun e => e.is_config) w (write_disabled m runtime w).2 := by
  unfold write_disabled
  split
  · exact .single rfl rfl
  · exact .single rfl rfl

theorem write_disabled_disables (runtime : Items) (w : World) :
    ∃ e, (write_disabled m runtime w).2.trace.find? Event.is_config = some e ∧ Disables m e := by
  unfold write_disabled
  split
  · exact ⟨_, rfl, disabled_runtime_enabled runtime⟩
  · rename_i runtime_json hencode
    exact ⟨_, rfl, disabled_runtime runtime, runtime_json, disabled_runtime_enabled runtime,
      hencode, rfl⟩

theorem config_not_service {e : Event} (h : e.is_config) : e.service_command = none := by
  cases e with
  | write file contents outcome => rfl
  | encode_failed runtime => rfl
  | exec command rc => cases h

theorem config_not_write {e : Event} {file : File} (h : e.is_config) (hfile : file ≠ .config_json) :
    e.is_write file = false := by
  cases e with
  | write f contents outcome =>
    cases f <;> first | exact decide_eq_false (fun heq => hfile heq.symm) | cases h
  | encode_failed runtime => rfl
  | exec command rc => cases h

/-- No service command yet, and no write of the enable flag. -/
structure Quiet (w : World) : Prop where
  no_command : last_service_command w.trace = none
  no_flag : w.trace.countP (Event.is_write .rc_conf) = 0

theorem Quiet.adds {P : Event → Prop} {w w' : World} (h : Quiet w) (hadds : Adds P w w')
    (hcommand : ∀ e, P e → e.service_command = none)
    (hflag : ∀ e, P e → e.is_write .rc_conf = false) : Quiet w' where
  no_command := (hadds.last_service_command_eq hcommand).trans h.no_command
  no_flag := (hadds.countP_eq hflag).trans h.no_flag

theorem Quiet.config {w w' : World} (h : Quiet w) (hadds : Adds (fun e => e.is_config) w w') :
    Quiet w' :=
  h.adds hadds (fun _ he => config_not_service he) (fun _ he => config_not_write he (by decide))

/-- From a quiet world: the service is told to stop when the flag is written. -/
theorem apply_stop_iff (enabled reload_filter : Bool) {w : World} (hquiet : Quiet w)
    (h : (apply_service_state m enabled reload_filter w).1 = false ∨ enabled = false) :
    last_service_command (apply_service_state m enabled reload_filter w).2.trace = some .stop ↔
      m.writes .rc_conf 0 = .written := by
  rw [← atomic_write_iff (rc_conf_contents enabled) hquiet.no_flag]
  cases hflag : (atomic_write m .rc_conf (rc_conf_contents enabled) w).1 with
  | false =>
    rw [(apply_unflagged hflag).2, hquiet.no_command]
    simp
  | true => exact iff_of_true (apply_flagged hflag h) rfl

theorem disable_runtime_adds (cfg : Items) (error : Text) (apply_service reload_filter : Bool)
    (w : World) : Adds (fun e => e.of_state ∨ e.is_config) w
      (disable_runtime m cfg error apply_service reload_filter w).2 := by
  have hwrite : Adds (fun e => e.of_state ∨ e.is_config) w
      (write_disabled m (runtime_config m.php cfg) { w with last_error := error }).2 :=
    (Adds.unchanged rfl).trans ((write_disabled_adds _ _).mono (fun _ he => .inr he))
  unfold disable_runtime
  dsimp only
  split
  · refine Adds.trans ?_ ((apply_service_state_adds false reload_filter _).mono (fun _ he => .inl he))
    split
    · exact hwrite.trans (.unchanged rfl)
    · exact hwrite
  · split
    · exact hwrite.trans (.unchanged rfl)
    · exact hwrite

/-- Disabling the runtime fails closed exactly when the enable flag can be written. -/
theorem disable_runtime_iff {cfg : Items} {error : Text} {reload_filter : Bool} {w : World}
    (hquiet : Quiet w) :
    FailsClosed m (disable_runtime m cfg error true reload_filter w) ↔
      m.writes .rc_conf 0 = .written := by
  have hwrite := write_disabled_adds (m := m) (runtime_config m.php cfg)
    { w with last_error := error }
  obtain ⟨e, hfind, hdisables⟩ := write_disabled_disables (m := m) (runtime_config m.php cfg)
    { w with last_error := error }
  have hstart : Quiet { w with last_error := error } := ⟨hquiet.no_command, hquiet.no_flag⟩
  unfold FailsClosed disable_runtime
  dsimp only
  generalize hw' : (if (!(write_disabled m (runtime_config m.php cfg)
      { w with last_error := error }).1) = true then _ else _ : World) = w'
  have htrace : w'.trace = (write_disabled m (runtime_config m.php cfg)
      { w with last_error := error }).2.trace := by
    rw [← hw']
    split <;> rfl
  have hquiet' : Quiet w' := (hstart.config hwrite).adds (.unchanged htrace) (P := fun _ => False)
    (fun _ h => h.elim) (fun _ h => h.elim)
  rw [if_pos rfl]
  dsimp only
  rw [← apply_stop_iff false reload_filter hquiet' (.inr rfl)]
  constructor
  · intro h
    exact (h rfl).1
  · intro h _
    refine ⟨h, e, ?_, hdisables⟩
    rw [(apply_service_state_adds false reload_filter w').find_eq
      (fun e he => of_state_not_config he), htrace]
    exact hfind


/-- The loop succeeds when each of the files is written, and writes nothing else. -/
theorem write_pems_spec {pems : List (Option Value × String × File)}
    (hdistinct : (pems.map (fun pem => pem.2.2)).Nodup) : ∀ {w : World},
      (∀ pem ∈ pems, w.trace.countP (Event.is_write pem.2.2) = 0) →
      ((write_pems m pems w).1 = true ↔ ∀ pem ∈ pems, PemWritten m pem) ∧
        Adds (fun e => ∃ pem ∈ pems, e.is_write pem.2.2) w (write_pems m pems w).2 := by
  induction pems with
  -- the induction is on the files that are left
  | nil => exact fun _ => ⟨iff_of_true rfl (by simp), .unchanged rfl⟩
  | cons pem pems ih =>
    intro w hfirst
    obtain ⟨record, key, file⟩ := pem
    rw [List.map_cons, List.nodup_cons] at hdistinct
    obtain ⟨hfile, hdistinct⟩ := hdistinct
    have hrest : ∀ pem ∈ pems, w.trace.countP (Event.is_write pem.2.2) = 0 :=
      fun pem hpem => hfirst pem (List.mem_cons_of_mem _ hpem)
    -- what the rest of the loop writes are files of the whole list
    have hadd : ∀ {w' w'' : World}, Adds (fun e => ∃ pem ∈ pems, e.is_write pem.2.2) w' w'' →
        Adds (fun e => ∃ pem ∈ (record, key, file) :: pems, e.is_write pem.2.2) w' w'' := by
      intro w' w'' h
      refine h.mono ?_
      rintro e ⟨pem, hpem, he⟩
      exact ⟨pem, List.mem_cons_of_mem _ hpem, he⟩
    rw [List.forall_mem_cons]
    unfold write_pems PemWritten
    dsimp only
    split
    · -- an empty record is passed over
      rename_i hempty
      obtain ⟨hiff, hadds⟩ := ih hdistinct hrest
      rw [hiff]
      exact ⟨(and_iff_right (.inl hempty)).symm, hadd hadds⟩
    rename_i hnonempty
    cases hdecode : m.base64_decode (record_text m.php record key) with
    | none =>
      refine ⟨iff_of_false Bool.false_ne_true ?_, .unchanged rfl⟩
      rintro ⟨h | h, -⟩
      · exact hnonempty h
      · cases h.1
    | some decoded =>
      dsimp only
      have hwrite : Adds (fun e => ∃ pem ∈ (record, key, file) :: pems, e.is_write pem.2.2) w
          (atomic_write m file decoded w).2 :=
        (atomic_write_adds file decoded w).mono (fun e he => ⟨_, List.mem_cons_self, he⟩)
      have hwritten := atomic_write_iff (m := m) decoded (hfirst _ List.mem_cons_self)
      have hpem : (record_text m.php record key = [] ∨
          (some decoded).isSome ∧ m.writes file 0 = .written) ↔ m.writes file 0 = .written := by
        constructor
        · rintro (h | h)
          · exact absurd h hnonempty
          · exact h.2
        · exact fun h => .inr ⟨rfl, h⟩
      rw [hpem, ← hwritten]
      split
      · rename_i hok
        -- the other files are still unwritten
        have hothers : ∀ pem ∈ pems,
            (atomic_write m file decoded w).2.trace.countP (Event.is_write pem.2.2) = 0 := by
          intro pem hmem
          rw [(atomic_write_adds file decoded w).countP_eq, hrest pem hmem]
          intro e he
          cases e with
          | write f contents outcome =>
            rw [Event.is_write, decide_eq_true_eq] at he
            subst he
            refine decide_eq_false (fun heq => hfile ?_)
            rw [show f = pem.2.2 from heq]
            exact List.mem_map.mpr ⟨pem, hmem, rfl⟩
          | encode_failed runtime => rfl
          | exec command rc => rfl
        obtain ⟨hiff, hadds⟩ := ih hdistinct hothers
        rw [hiff]
        exact ⟨(and_iff_right hok).symm, hwrite.trans (hadd hadds)⟩
      · rename_i hfailed
        exact ⟨iff_of_false Bool.false_ne_true (fun h => hfailed h.1), hwrite⟩

theorem write_not_service {e : Event} {file : File} (h : e.is_write file) :
    e.service_command = none := by
  cases e with
  | write f contents outcome => rfl
  | encode_failed runtime => cases h
  | exec command rc => cases h

theorem write_not_other {e : Event} {file other : File} (h : e.is_write file)
    (hne : file ≠ other) : e.is_write other = false := by
  cases e with
  | write f contents outcome =>
    rw [Event.is_write, decide_eq_true_eq] at h
    subst h
    exact decide_eq_false hne
  | encode_failed runtime => cases h
  | exec command rc => cases h

theorem Quiet.write {w w' : World} {file : File} (h : Quiet w)
    (hadds : Adds (fun e => e.is_write file) w w') (hfile : file ≠ .rc_conf) : Quiet w' :=
  h.adds hadds (fun _ he => write_not_service he) (fun _ he => write_not_other he hfile)

/-- The end of the resynchronisation, from a quiet world. -/
theorem install_runtime_iff {cfg : Items} {w : World} (hquiet : Quiet w)
    (hfirst : w.trace.countP (Event.is_write .config_json) = 0) :
    FailsClosed m (install_runtime m cfg true w) ↔
      m.writes .rc_conf 0 = .written ∧ m.writes .config_json 0 = .written := by
  have hwritten := atomic_write_iff (m := m)
    ((m.json_encode (.arr (runtime_config m.php cfg))).getD [] ++ ['\n']) hfirst
  have hquiet' := hquiet.write (atomic_write_adds (m := m) .config_json
    ((m.json_encode (.arr (runtime_config m.php cfg))).getD [] ++ ['\n']) w) (by decide)
  unfold FailsClosed install_runtime
  dsimp only
  generalize atomic_write m .config_json
    ((m.json_encode (.arr (runtime_config m.php cfg))).getD [] ++ ['\n']) w = call
    at hwritten hquiet'
  obtain ⟨written, w'⟩ := call
  rw [← hwritten]
  cases written with
  | false =>
    -- the service is left as it was
    refine iff_of_false (fun h => ?_) (fun h => Bool.false_ne_true h.2)
    have hstop : last_service_command w'.trace = some .stop := (h rfl).1
    rw [show last_service_command w'.trace = none from hquiet'.no_command] at hstop
    cases hstop
  | true =>
    rw [if_neg (by simp), if_neg (by simp), and_iff_left rfl]
    dsimp only
    -- the configuration is written; what is left is the service
    generalize (!is_empty (entry (runtime_config m.php cfg) "enabled")) = enabled
    have hiff := apply_stop_iff (m := m) enabled true hquiet'
    have hflag := @apply_unflagged m enabled true w'
    -- it succeeds only when the enable flag was written
    rw [Bool.eq_false_iff, ne_eq, atomic_write_iff _ hquiet'.no_flag] at hflag
    generalize apply_service_state m enabled true w' = applied at hiff hflag
    obtain ⟨applied, w''⟩ := applied
    cases applied with
    | true =>
      refine iff_of_true (fun h => (by cases h)) ?_
      by_contra hne
      exact absurd (hflag hne).1 (fun h => (by cases h))
    | false =>
      have hdisabled := write_disabled_adds (m := m) (runtime_config m.php cfg) w''
      have hstop := hdisabled.last_service_command_eq (fun e he => config_not_service he)
      rw [← hiff (.inl rfl), ← hstop]
      constructor
      · intro h
        exact (h rfl).1
      · intro h _
        exact ⟨h, write_disabled_disables _ _⟩

theorem quiet_start : Quiet {} := ⟨rfl, rfl⟩

theorem selected_pems_distinct (cert ca : Option Value) :
    ((pems cert ca).map (fun pem => pem.2.2)).Nodup := by
  show [File.server_crt, File.server_key, File.ca_crt].Nodup
  decide

theorem pem_file {cert ca : Option Value} {pem : Option Value × String × File}
    (h : pem ∈ pems cert ca) :
    pem.2.2 = .server_crt ∨ pem.2.2 = .server_key ∨ pem.2.2 = .ca_crt := by
  simp only [pems, List.mem_cons, List.not_mem_nil, or_false] at h
  rcases h with rfl | rfl | rfl <;> simp

/-- What stands in the way of the resynchronisation disables the runtime, and the end of it needs
the write of the runtime configuration as well. -/
theorem resync_config_iff (root : Value) :
    FailsClosed m (resync_config m root true {}) ↔ m.writes .rc_conf 0 = .written ∧
      (Ready m root → m.writes .config_json 0 = .written) := by
  -- a check that fails
  have hblocked : ∀ {w : World} {error : Text}, Quiet w → ¬ Ready m root →
      (FailsClosed m (disable_runtime m (get_config m.php root) error true true w) ↔
        m.writes .rc_conf 0 = .written ∧
          (Ready m root → m.writes .config_json 0 = .written)) := by
    intro w error hquiet hready
    rw [disable_runtime_iff hquiet]
    exact (and_iff_left (fun h => absurd h hready)).symm
  -- the checks in the order of the source
  unfold resync_config
  dsimp only
  split
  · rename_i herror
    refine hblocked quiet_start (fun h => ?_)
    rw [h.no_error] at herror
    cases herror
  rename_i herror
  rw [Bool.not_eq_true, Bool.not_eq_false'] at herror
  cases hclients : validate_runtime_clients m.php
      (m.php.array_get_path (.arr (get_config m.php root)) [name "clients"] (.arr [])) with
  | error error =>
    refine hblocked quiet_start (fun h => ?_)
    obtain ⟨clients, hok⟩ := h.clients
    rw [hclients] at hok
    cases hok
  | ok clients =>
  dsimp only
  cases halias : get_alias_addresses m.inet (aliases m.php root)
      (whitelist_alias m (get_config m.php root)) with
  | error error => exact hblocked quiet_start (fun h => h.resolved ⟨error, halias⟩)
  | ok whitelist =>
  dsimp only
  -- the first write of the whitelist
  have hwhitelist := @atomic_write_iff m .whitelist (resync_whitelist whitelist) {} rfl
  have hadds := atomic_write_adds (m := m) .whitelist (resync_whitelist whitelist) {}
  have hquiet := quiet_start.write hadds (by decide)
  have hunwritten : ∀ {file : File}, file ≠ .whitelist →
      (atomic_write m .whitelist (resync_whitelist whitelist) {}).2.trace.countP
        (Event.is_write file) = 0 :=
    fun hfile => hadds.countP_eq (fun _ he => write_not_other he hfile.symm)
  generalize atomic_write m .whitelist (resync_whitelist whitelist) {} = call
    at hwhitelist hadds hquiet hunwritten
  obtain ⟨written, w⟩ := call
  dsimp only at hwhitelist hadds hquiet hunwritten ⊢
  split
  · rename_i hfailed
    refine hblocked hquiet (fun h => ?_)
    rw [hwhitelist.mpr h.whitelist] at hfailed
    cases hfailed
  rename_i hwritten
  rw [Bool.not_eq_true, Bool.not_eq_false', hwhitelist] at hwritten
  split
  · rename_i hmaterial
    refine hblocked hquiet (fun h => ?_)
    rw [h.material] at hmaterial
    cases hmaterial
  rename_i hmaterial
  rw [Bool.not_eq_true, Bool.not_eq_false'] at hmaterial
  -- the certificates and the key
  obtain ⟨hpems, hpem_adds⟩ := write_pems_spec (m := m) (selected_pems_distinct
    (selected_cert m root (get_config m.php root)) (selected_ca m root (get_config m.php root)))
    (w := w) (fun pem hpem => hunwritten (by rcases pem_file hpem with h | h | h <;> rw [h] <;> decide))
  have hpem_other : ∀ {other : File}, other = .rc_conf ∨ other = .config_json → ∀ e : Event,
      (∃ pem ∈ pems (selected_cert m root (get_config m.php root))
        (selected_ca m root (get_config m.php root)), e.is_write pem.2.2) →
      e.is_write other = false := by
    rintro other hother e ⟨pem, hpem, he⟩
    refine write_not_other he ?_
    rcases pem_file hpem with h | h | h <;> rw [h] <;> rcases hother with rfl | rfl <;> decide
  have hquiet' := hquiet.adds hpem_adds (fun e ⟨_, _, he⟩ => write_not_service he)
    (hpem_other (.inl rfl))
  split
  · rename_i hfailed
    refine hblocked hquiet' (fun h => ?_)
    rw [hpems.mpr h.pems] at hfailed
    cases hfailed
  rename_i hok
  rw [Bool.not_eq_true, Bool.not_eq_false', hpems] at hok
  -- every check has passed
  have hready : Ready m root := {
    no_error := herror
    clients := ⟨clients, hclients⟩
    resolved := by
      rintro ⟨error, h⟩
      rw [halias] at h
      cases h
    whitelist := hwritten
    material := hmaterial
    pems := hok }
  rw [install_runtime_iff hquiet'
    ((hpem_adds.countP_eq (hpem_other (.inr rfl))).trans (hunwritten (by decide)))]
  exact and_congr_right (fun _ => ⟨fun h _ => h, fun h => h hready⟩)

/-- A refresh that fails disables the runtime. -/
theorem refresh_whitelist_iff (root : Value) (cfg : Items) :
    FailsClosed m (refresh_whitelist m root cfg {}) ↔
      (¬ AliasFails m root cfg ∧ m.writes .whitelist 0 = .written) ∨
        m.writes .rc_conf 0 = .written := by
  unfold refresh_whitelist
  cases halias : get_alias_addresses m.inet (aliases m.php root) (whitelist_alias m cfg) with
  | error error =>
    dsimp only
    rw [disable_runtime_iff quiet_start]
    exact (or_iff_right (fun h => h.1 ⟨error, halias⟩)).symm
  | ok entries =>
    dsimp only
    have hresolved : ¬ AliasFails m root cfg := by
      rintro ⟨error, h⟩
      rw [halias] at h
      cases h
    rw [and_iff_right hresolved]
    have hwhitelist := @atomic_write_iff m .whitelist (Alias.refresh_whitelist entries) {} rfl
    have hquiet := quiet_start.write
      (atomic_write_adds (m := m) .whitelist (Alias.refresh_whitelist entries) {}) (by decide)
    split
    · rename_i hwritten
      exact iff_of_true (fun h => (by cases h)) (.inl (hwhitelist.mp hwritten))
    · rename_i hfailed
      rw [disable_runtime_iff hquiet]
      exact (or_iff_right (fun h => hfailed (hwhitelist.mpr h))).symm

theorem disable_keeps_whitelist (cfg : Items) (error : Text) (apply_service reload_filter : Bool) :
    ∀ e ∈ (disable_runtime m cfg error apply_service reload_filter {}).2.trace,
      e.is_write .whitelist = false := by
  refine ((disable_runtime_adds cfg error apply_service reload_filter {}).mem_iff ?_).mpr
    (fun e he => absurd he List.not_mem_nil)
  rintro e (he | he)
  · exact of_state_not_write he (by decide)
  · exact config_not_write he (by decide)

theorem resync_keeps_whitelist (root : Value) :
    KeepsWhitelist m root (get_config m.php root) (resync_config m root true {}) := by
  rintro ⟨error, halias⟩
  unfold resync_config
  dsimp only
  split
  · exact disable_keeps_whitelist _ _ _ _
  split
  · exact disable_keeps_whitelist _ _ _ _
  rw [halias]
  exact disable_keeps_whitelist _ _ _ _

theorem refresh_keeps_whitelist (root : Value) (cfg : Items) :
    KeepsWhitelist m root cfg (refresh_whitelist m root cfg {}) := by
  rintro ⟨error, halias⟩
  unfold refresh_whitelist
  rw [halias]
  exact disable_keeps_whitelist _ _ _ _

/-- **When an update that fails leaves the service stopped.** For every pattern of outcomes and
every stored configuration: the two functions fail closed, and leave the whitelist when its alias
does not resolve, exactly when the enable flag can be written and the runtime configuration too
once it is reached; a refresh that succeeds needs neither. -/
theorem fails_closed_iff (m : Machine) (root : Value) (cfg : Items) :
    (FailsClosed m (resync_config m root true {}) ∧
        KeepsWhitelist m root (get_config m.php root) (resync_config m root true {}) ↔
      m.writes .rc_conf 0 = .written ∧ (Ready m root → m.writes .config_json 0 = .written)) ∧
    (FailsClosed m (refresh_whitelist m root cfg {}) ∧
        KeepsWhitelist m root cfg (refresh_whitelist m root cfg {}) ↔
      (¬ AliasFails m root cfg ∧ m.writes .whitelist 0 = .written) ∨
        m.writes .rc_conf 0 = .written) := by
  rw [and_iff_left (resync_keeps_whitelist root), and_iff_left (refresh_keeps_whitelist root cfg)]
  exact ⟨resync_config_iff root, refresh_whitelist_iff root cfg⟩

/-! A firewall whose disk does not take the new `config.json`. -/

def sample_pem (text : Text) : Option Text :=
  if text = "Y3J0".toList then some "crt".toList
  else if text = "a2V5".toList then some "key".toList
  else if text = "Y2E=".toList then some "ca".toList
  else none

def full_disk : Machine where
  inet := sample_inet
  php := sample_library
  base64_decode := sample_pem
  json_encode := sample_library.encode
  writes := fun file _ => if file = .config_json then .kept else .written
  mwexec := fun _ => some 0

def enabled_config : Value := .arr [
  (name "installedpackages", .arr [(name "f2bguard", .arr [(name "config", .arr [(.int 0, .arr [
    (name "enabled", .str "yes".toList),
    (name "tls_cert_ref", .str "6650f0a1".toList),
    (name "tls_ca_ref", .str "6650f0b2".toList)])])])]),
  (name "cert", .arr [(.int 0, .arr [(name "refid", .str "6650f0a1".toList),
    (name "crt", .str "Y3J0".toList), (name "prv", .str "a2V5".toList)])]),
  (name "ca", .arr [(.int 0, .arr [(name "refid", .str "6650f0b2".toList),
    (name "crt", .str "Y2E=".toList)])])]

/-- The certificates are new, `config.json` is not, and the service runs on. -/
theorem runtime_write_leaves_service :
    ¬ FailsClosed full_disk (resync_config full_disk enabled_config true {}) := by
  intro h
  have hfalse : (resync_config full_disk enabled_config true {}).1 = false := by decide +kernel
  have hnone : last_service_command (resync_config full_disk enabled_config true {}).2.trace =
      none := by decide +kernel
  have hstop := (h hfalse).1
  rw [hnone] at hstop
  cases hstop

end F2bguard.Service
