/-
The commands that Fail2Ban and the timer run: `_cli` (`sender.py`) and `f2bguard-action.conf`.

`enqueue` takes only configured jails, and of the bans only those whose bantime is -1. `snapshot`
reads the last number, asks Fail2Ban jail by jail and hands the claims over with the number, five
times at most while hooks come in between. What it hands over is what `enumerate_permanent_jails`
returns for the answers it got (`Asked.enumerated`).
-/
import F2bguard.Enumeration
import F2bguard.Identities

set_option autoImplicit false

namespace F2bguard.Sender

open F2bguard.PyText F2bguard.PyJson F2bguard.Claims

/-! ## `enqueue`

The command checks its arguments before it opens the store. A ban for a limited time is no error:
the command does nothing and ends well, so that Fail2Ban may run the same action for every ban. -/

/-- The names of the configured jails. -/
def SenderConfig.jail_names (config : SenderConfig) : List Text :=
  config.permanent_jails.map PermanentJail.name

/-- `enqueue` up to the call of the store, or the message of the `ConfigError`: for a jail that is not
configured, a ban without `--bantime`, and a bantime that is no integer. The result is `false` when the
ban is temporary and the store is not called. -/
def check_enqueue (config : SenderConfig) (op : Op) (jail : Text) (bantime : Option Text) :
    Except Text Bool :=
  if jail ∉ config.jail_names then .error "jail is not configured as permanent".toList
  else
    match op, bantime with
    | .unban, _ => .ok true
    | .ban, none => .error "ban enqueue requires --bantime".toList
    | .ban, some text =>
        match int_decimal text with
        | none => .error "bantime must be an integer".toList
        | some bantime => .ok (bantime = -1)

/-- A call of `enqueue` that Fail2Ban makes. -/
structure Hook where
  op : Op
  jail : Text
  ip : Text
  bantime : Option Text
  deriving DecidableEq

/-- `enqueue ban --jail <name> --ip <ip> --bantime <bantime>` -/
def actionban (jail ip bantime : Text) : Hook := ⟨.ban, jail, ip, some bantime⟩

/-- `enqueue unban --jail <name> --ip <ip>` -/
def actionunban (jail ip : Text) : Hook := ⟨.unban, jail, ip, none⟩

/-- The claim a call is about. -/
def Hook.pair (h : Hook) : Option (Text × Text) := (canonical_ip h.ip).toOption.map (h.jail, ·)

/-- What a call that goes through does to the claim it is about. A ban for a limited time leaves
it alone, also one that was permanent before. -/
def Hook.write (h : Hook) (active : Bool) : Bool :=
  match h.op with
  | .unban => false
  | .ban => if h.bantime.bind int_decimal = some (-1) then true else active

theorem check_enqueue_true {config : SenderConfig} {h : Hook}
    (hcheck : check_enqueue config h.op h.jail h.bantime = .ok true) (active : Bool) :
    h.write active = decide (h.op = .ban) := by
  obtain ⟨op, jail, ip, bantime⟩ := h
  unfold check_enqueue at hcheck
  split at hcheck
  · cases hcheck
  cases op with
  | unban => rfl
  | ban =>
    cases bantime with
    | none => cases hcheck
    | some text =>
      dsimp only at hcheck
      cases hint : int_decimal text with
      | none =>
        rw [hint] at hcheck
        cases hcheck
      | some n =>
        rw [hint] at hcheck
        have hn : n = -1 := of_decide_eq_true (Except.ok.inj hcheck)
        exact if_pos (by rw [Option.bind_some, hint, hn])

theorem check_enqueue_false {config : SenderConfig} {h : Hook}
    (hcheck : check_enqueue config h.op h.jail h.bantime = .ok false) (active : Bool) :
    h.write active = active := by
  obtain ⟨op, jail, ip, bantime⟩ := h
  unfold check_enqueue at hcheck
  split at hcheck
  · cases hcheck
  cases op with
  | unban => cases hcheck
  | ban =>
    cases bantime with
    | none => cases hcheck
    | some text =>
      dsimp only at hcheck
      cases hint : int_decimal text with
      | none =>
        rw [hint] at hcheck
        cases hcheck
      | some n =>
        rw [hint] at hcheck
        have hn : ¬ n = -1 := of_decide_eq_false (Except.ok.inj hcheck)
        exact if_neg (by rw [Option.bind_some, hint, Option.some.injEq]; exact hn)

/-! ## `snapshot`

The command is not one transaction. It reads the last number, runs `fail2ban-client` for one jail
after the other, and then writes, all with hooks in between. So it is a machine with a phase
between any two of these, and the steps of the others come where the phases meet. A race sends it
back to the reading, with one turn less. -/

/-- What ends a command: its own message after five races, an enumeration that did not succeed, an
error of the store that is not a race, or a kill. -/
inductive CommandError
  | runtime_error (message : Text)
  | enumeration (failure : EnumerationFailure)
  | store (error : SenderError)
  | killed
  deriving DecidableEq

/-- Where a `snapshot` command is; `left` are the turns of its loop after this one. -/
inductive Phase
  | observing (left : ℕ)
  | asking (left observed : ℕ) (rest : List PermanentJail) (claims : List EnumeratedClaim)
  | writing (left observed : ℕ) (claims : List EnumeratedClaim)
  | ended (result : Except CommandError Unit)

/-- `range(5)` -/
def Phase.started : Phase := .observing 5

/-- `observed_seq = store.current_seq()`, or the end of the loop. The number is read before
Fail2Ban is asked: a hook that comes between the two shows as a later number. -/
def Phase.observe (config : SenderConfig) (db : DB) : ℕ → Phase
  | 0 => .ended (.error (.runtime_error
      "Fail2Ban changed continuously; snapshot not created".toList))
  | left + 1 => .asking left db.seq config.permanent_jails []

/-- One turn of the loop in `enumerate_permanent_jails`. A jail that cannot be enumerated ends the
command, and nothing is written: an empty list would release what the jail has banned. -/
def Phase.ask (left observed : ℕ) (jail : PermanentJail) (rest : List PermanentJail)
    (claims : List EnumeratedClaim) (completed : Option Completed) : Phase :=
  match enumerate_jail completed jail with
  | .error failure => .ended (.error (.enumeration failure))
  | .ok list => .asking left observed rest (claims ++ list)

/-- `except SnapshotRace: continue` -/
def Phase.written (left : ℕ) : Except SenderError SnapshotPayload → Phase
  | .ok _ => .ended (.ok ())
  | .error .snapshot_race => .observing left
  | .error e => .ended (.error (.store e))

/-- The claims are those of the jails before `rest`. -/
structure Asked (config : SenderConfig) (rest : List PermanentJail) (claims : List EnumeratedClaim) :
    Prop where
  asked : ∃ (asked : List PermanentJail) (runner : Text → Option Completed)
    (lists : List (List EnumeratedClaim)), config.permanent_jails = asked ++ rest ∧
    asked.mapM (fun jail => enumerate_jail (runner jail.name) jail) = .ok lists ∧
      claims = lists.flatten

theorem Asked.start (config : SenderConfig) : Asked config config.permanent_jails [] :=
  ⟨[], fun _ => none, [], rfl, rfl, rfl⟩

theorem Asked.enumerated {config : SenderConfig} {claims : List EnumeratedClaim}
    (h : Asked config [] claims) :
    ∃ runner, enumerate_permanent_jails config runner = .ok claims := by
  obtain ⟨asked, runner, lists, hjails, hlists, rfl⟩ := h.asked
  rw [List.append_nil] at hjails
  exact ⟨runner, by rw [enumerate_permanent_jails, hjails, hlists]; rfl⟩

/-- The jails have different names, so one runner gives all the answers. -/
theorem Asked.ask {config : SenderConfig} (hnames : config.jail_names.Nodup) {jail : PermanentJail}
    {rest : List PermanentJail} {claims list : List EnumeratedClaim} {completed : Option Completed}
    (h : Asked config (jail :: rest) claims) (hlist : enumerate_jail completed jail = .ok list) :
    Asked config rest (claims ++ list) := by
  obtain ⟨asked, runner, lists, hjails, hlists, rfl⟩ := h.asked
  rw [SenderConfig.jail_names, hjails, List.map_append, List.map_cons] at hnames
  have hother : ∀ j ∈ asked, j.name ≠ jail.name := fun j hj hname =>
    (List.nodup_append.mp hnames).2.2 j.name (List.mem_map_of_mem hj) jail.name
      List.mem_cons_self hname
  refine ⟨asked ++ [jail], Function.update runner jail.name completed, lists ++ [list], ?_, ?_, ?_⟩
  · rw [hjails, List.append_assoc, List.singleton_append]
  · have hsame : asked.mapM (fun j => enumerate_jail (Function.update runner jail.name completed j.name) j) =
        asked.mapM (fun j => enumerate_jail (runner j.name) j) := by
      clear hlists hjails hnames
      induction asked with
      | nil => rfl
      | cons j asked ih =>
        rw [List.mapM_cons, List.mapM_cons, Function.update_of_ne (hother j List.mem_cons_self),
          ih (fun j' hj' => hother j' (List.mem_cons_of_mem _ hj'))]
    rw [List.mapM_append, hsame, hlists, List.mapM_cons, Function.update_self, hlist, List.mapM_nil]
    rfl
  · rw [List.flatten_append, List.flatten_singleton]

/-- What was asked before is not about the next jail. -/
theorem Asked.jail_ne {config : SenderConfig} (hnames : config.jail_names.Nodup) {jail : PermanentJail}
    {rest : List PermanentJail} {claims : List EnumeratedClaim} (h : Asked config (jail :: rest) claims) :
    ∀ c ∈ claims, c.jail ≠ jail.name := by
  obtain ⟨asked, runner, lists, hjails, hlists, rfl⟩ := h.asked
  rw [SenderConfig.jail_names, hjails, List.map_append, List.map_cons] at hnames
  have henumerated : enumerate_permanent_jails { config with permanent_jails := asked } runner =
      .ok lists.flatten := by
    rw [enumerate_permanent_jails, hlists]
    rfl
  intro c hc hname
  obtain ⟨⟨j, hj, hjail⟩, -, -⟩ := enumerate_spec henumerated c hc
  exact (List.nodup_append.mp hnames).2.2 j.name (List.mem_map_of_mem hj) jail.name
    List.mem_cons_self (hjail.symm.trans hname)

theorem enumerate_jail_eq_ok {completed : Option Completed} {jail : PermanentJail}
    {list : List EnumeratedClaim} (h : enumerate_jail completed jail = .ok list) :
    ∃ stdout ips, completed = some ⟨0, stdout⟩ ∧ _extract_permanent_ips stdout = .ok ips ∧
      list = ips.map (fun ip => { jail := jail.name, ip }) := by
  unfold enumerate_jail at h
  split at h
  · cases h
  · rename_i completed
    split at h
    · cases h
    · rename_i hcode
      obtain ⟨ips, hips, rfl⟩ := Store.map_eq_ok.mp h
      exact ⟨completed.stdout, ips, by rw [← not_not.mp hcode], hips, rfl⟩

/-- A line is one ticket. -/
theorem Ticket.unique {line : Text} {ticket ticket' : Text × Text} (h : Ticket line ticket)
    (h' : Ticket line ticket') : ticket = ticket' := by
  obtain ⟨ip, hmatch, hip⟩ := h
  obtain ⟨ip', hmatch', hip'⟩ := h'
  have hgroups := (ban_with_time_iff.mpr hmatch).symm.trans (ban_with_time_iff.mpr hmatch')
  obtain ⟨rfl, hduration⟩ := Prod.mk.inj (Option.some.inj hgroups)
  exact Prod.ext (Except.ok.inj (hip.symm.trans hip')) hduration

theorem tickets_unique {lines : List Text} {tickets tickets' : List (Text × Text)}
    (h : List.Forall₂ Ticket lines tickets) (h' : List.Forall₂ Ticket lines tickets') :
    tickets = tickets' := by
  induction h generalizing tickets' with
  | nil =>
    cases h'
    rfl
  | cons hticket _ ih =>
    cases h' with
    | cons hticket' hrest => rw [hticket.unique hticket', ih hrest]

/-- `permanent_jails contains a duplicate` -/
theorem read_jails_nodup {lib : Library} {raw : List (Text × Json)} {jails : List PermanentJail}
    (h : read_jails lib raw = .ok jails) : (jails.map PermanentJail.name).Nodup := by
  have hadd : ∀ (items : List Json) (before after : List PermanentJail),
      (before.map PermanentJail.name).Nodup → items.foldlM (add_jail lib) before = .ok after →
        (after.map PermanentJail.name).Nodup := by
    intro items
    induction items with
    | nil =>
      intro before after hbefore h
      cases h
      exact hbefore
    | cons item items ih =>
      intro before after hbefore h
      rw [List.foldlM_cons] at h
      obtain ⟨jails, hitem, h⟩ := Store.bind_eq_ok.mp h
      refine ih jails after ?_ h
      unfold add_jail at hitem
      split at hitem
      · split at hitem
        · cases hitem
        · obtain ⟨entry, -, hentry⟩ := Store.bind_eq_ok.mp hitem
          split at hentry
          · cases hentry
          · rename_i hnew
            cases hentry
            rw [List.map_append, List.map_singleton, ← List.concat_eq_append, List.nodup_concat]
            refine ⟨fun hmem => hnew ?_, hbefore⟩
            obtain ⟨jail, hjail, hname⟩ := List.mem_map.mp hmem
            exact List.any_eq_true.mpr ⟨jail, hjail, decide_eq_true hname⟩
      · cases hitem
  unfold read_jails at h
  split at h
  · exact hadd _ [] jails List.nodup_nil h
  · cases h

theorem from_dict_names {lib : Library} {raw : Json} {config : SenderConfig}
    (h : SenderConfig.from_dict lib raw = .ok config) : config.jail_names.Nodup := by
  unfold SenderConfig.from_dict at h
  split at h
  · dsimp only at h
    split at h
    · cases h
    · obtain ⟨_, -, h⟩ := Store.bind_eq_ok.mp h
      obtain ⟨_, -, h⟩ := Store.bind_eq_ok.mp h
      obtain ⟨_, -, h⟩ := Store.bind_eq_ok.mp h
      obtain ⟨jails, hjails, h⟩ := Store.bind_eq_ok.mp h
      obtain ⟨_, -, h⟩ := Store.bind_eq_ok.mp h
      obtain ⟨initial, -, h⟩ := Store.bind_eq_ok.mp h
      obtain ⟨maximum, -, h⟩ := Store.bind_eq_ok.mp h
      split at h
      · cases h
      · obtain ⟨_, -, h⟩ := Store.bind_eq_ok.mp h
        obtain ⟨_, -, h⟩ := Store.bind_eq_ok.mp h
        obtain ⟨_, -, h⟩ := Store.bind_eq_ok.mp h
        obtain ⟨_, -, h⟩ := Store.bind_eq_ok.mp h
        cases h
        exact read_jails_nodup hjails
  · cases h

end F2bguard.Sender
