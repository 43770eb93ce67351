/-
The helper, one call of `pfctl` at a time.

`PFUpdater.replace` in steps: what is left to do for a request is `Work`, and each step makes one
call. Run to its end the work is `carry_out` (`carry_out_eq_run`), so the steps say nothing new
about a helper that is left alone; they say what the tables hold in between. Whatever is good
about the addresses that were asked for, and about those the tables held, is good about what the
tables hold after every step, as long as taking out whitelisted addresses keeps it
(`Supported.next`): the helper applies what it was asked or what it found, and nothing else.
-/
import F2bguard.HelperClient
import Mathlib.Data.Set.Basic

set_option autoImplicit false

namespace F2bguard.HelperSteps

open F2bguard.PyText F2bguard.PyJson F2bguard.Ipaddress F2bguard.Networks F2bguard.Whitelist
open F2bguard.PfHelper F2bguard.HelperClient
open F2bguard.Store (bind_eq_ok)

/-- What is left to do for a request, with what was read so far. The whitelist is read at the
start and used to the end, a rollback included. -/
inductive Work
  | show_four (networks : List IPNetwork) (requested : Families (List IPAddress))
  | show_six (networks : List IPNetwork) (requested : Families (List IPAddress))
      (previous4 : List IPNetwork)
  | replace_four (networks : List IPNetwork) (requested : Families (List IPAddress))
      (previous : Families (List IPNetwork))
  | replace_six (networks : List IPNetwork) (requested : Families (List IPAddress))
      (previous : Families (List IPNetwork))
  | restore_four (networks : List IPNetwork) (previous : Families (List IPNetwork))
  | restore_six (networks : List IPNetwork) (previous : Families (List IPNetwork)) (failed : Bool)
  | ended (result : Except Raised Applied)

/-- The whitelist that was read for it. -/
def Work.networks : Work → Option (List IPNetwork)
  | .show_four networks _ => some networks
  | .show_six networks _ _ => some networks
  | .replace_four networks _ _ => some networks
  | .replace_six networks _ _ => some networks
  | .restore_four networks _ => some networks
  | .restore_six networks _ _ => some networks
  | .ended _ => none

/-- The addresses `replace` sets for a request. -/
def wanted (networks : List IPNetwork) (requested : Families (List IPAddress)) :
    Families (List IPAddress) :=
  requested.map (effective (NetworkIndex.of_networks networks))

/-- The entries the rollback restores. -/
def restored (networks : List IPNetwork) (previous : Families (List IPNetwork)) :
    Families (List IPNetwork) :=
  previous.map (safe (NetworkIndex.of_networks networks))

/-- `handle`, up to the first call of `pfctl`. -/
def start (env : Env) (file : Except ReadFailure Text) (authorized : Bool) (data : Text) : Work :=
  match receive env authorized data with
  | .error e => .ended (.error e)
  | .ok request =>
      match parse_request request with
      | .error e => .ended (.error e)
      | .ok requested =>
          match read_whitelist file with
          | .error e => .ended (.error e)
          | .ok networks => .show_four networks requested

section Next

variable (sha256 : Text → Text) (outcomes : ℕ → Outcome)

/-- The next call of `pfctl`, and what becomes of the tables. A `show` that fails ends the work
with nothing replaced; a replacement that fails leads to the rollback, of which both calls are
made. -/
def Work.next : Work → PF → Work × PF
  | .show_four networks requested, pf =>
      match read_table outcomes pf .four with
      | (.error e, pf) => (.ended (.error e), pf)
      | (.ok previous4, pf) => (.show_six networks requested previous4, pf)
  | .show_six networks requested previous4, pf =>
      match read_table outcomes pf .six with
      | (.error e, pf) => (.ended (.error e), pf)
      | (.ok previous6, pf) => (.replace_four networks requested ⟨previous4, previous6⟩, pf)
  | .replace_four networks requested previous, pf =>
      match command outcomes pf .four
        (.replace (stdin_of IPAddress.str (wanted networks requested).v4)) with
      | (.error _, pf) => (.restore_four networks previous, pf)
      | (.ok _, pf) => (.replace_six networks requested previous, pf)
  | .replace_six networks requested previous, pf =>
      match command outcomes pf .six
        (.replace (stdin_of IPAddress.str (wanted networks requested).v6)) with
      | (.error _, pf) => (.restore_four networks previous, pf)
      | (.ok _, pf) => (.ended (.ok (applied sha256 (wanted networks requested))), pf)
  | .restore_four networks previous, pf =>
      match command outcomes pf .four
        (.replace (stdin_of network_str (restored networks previous).v4)) with
      | (.error _, pf) => (.restore_six networks previous true, pf)
      | (.ok _, pf) => (.restore_six networks previous false, pf)
  | .restore_six networks previous failed, pf =>
      match command outcomes pf .six
        (.replace (stdin_of network_str (restored networks previous).v6)) with
      | (.error _, pf) => (.ended (.error rollback_failed), pf)
      | (.ok _, pf) =>
          (.ended (.error (if failed then rollback_failed else rollback_completed)), pf)
  | .ended result, pf => (.ended result, pf)

/-- The call has failed. -/
def has_failed : Except Raised Text → Bool
  | .error _ => true
  | .ok _ => false

/-- A number of steps. -/
def Work.run : ℕ → Work → PF → Work × PF
  | 0, work, pf => (work, pf)
  | n + 1, work, pf => Work.run n (work.next sha256 outcomes pf).1 (work.next sha256 outcomes pf).2

theorem run_succ (n : ℕ) (work : Work) (pf : PF) : Work.run sha256 outcomes (n + 1) work pf =
    Work.run sha256 outcomes n (work.next sha256 outcomes pf).1 (work.next sha256 outcomes pf).2 := rfl

theorem run_ended (n : ℕ) (result : Except Raised Applied) (pf : PF) :
    Work.run sha256 outcomes n (.ended result) pf = (.ended result, pf) := by
  induction n with
  | zero => rfl
  | succ n ih => exact ih

/-- The rollback takes two calls. -/
theorem run_roll_back (n : ℕ) (networks : List IPNetwork) (previous : Families (List IPNetwork))
    (pf : PF) : Work.run sha256 outcomes (n + 2) (.restore_four networks previous) pf =
      (.ended (.error (if (roll_back outcomes pf ((restored networks previous).map
          (stdin_of network_str))).1 then rollback_failed else rollback_completed)),
        (roll_back outcomes pf ((restored networks previous).map (stdin_of network_str))).2) := by
  rcases h4 : command outcomes pf .four (.replace (stdin_of network_str (restored networks previous).v4))
    with ⟨r4, pf4⟩
  rcases h6 : command outcomes pf4 .six (.replace (stdin_of network_str (restored networks previous).v6))
    with ⟨r6, pf6⟩
  have hfirst : (Work.restore_four networks previous).next sha256 outcomes pf =
      (.restore_six networks previous (has_failed r4), pf4) := by
    rw [Work.next, h4]
    cases r4 <;> rfl
  have hsecond : ∀ failed : Bool, (Work.restore_six networks previous failed).next sha256 outcomes pf4 =
      (.ended (.error (if failed || has_failed r6 then rollback_failed else rollback_completed)), pf6) := by
    intro failed
    rw [Work.next, h6]
    cases r6 <;> cases failed <;> rfl
  have hroll : roll_back outcomes pf ((restored networks previous).map (stdin_of network_str)) =
      (has_failed r4 || has_failed r6, pf6) := by
    rw [roll_back, Families.map]
    dsimp only
    rw [h4]
    dsimp only
    rw [h6]
    cases r4 <;> cases r6 <;> rfl
  rw [run_succ, hfirst, run_succ, hsecond, run_ended, hroll]

/-- A step reads no other whitelist. -/
theorem networks_next {work : Work} {pf : PF} {networks : List IPNetwork}
    (h : (work.next sha256 outcomes pf).1.networks = some networks) : work.networks = some networks := by
  cases work with
  | show_four networks requested =>
    rw [Work.next] at h
    split at h
    · cases h
    · exact h
  | show_six networks requested previous4 =>
    rw [Work.next] at h
    split at h
    · cases h
    · exact h
  | replace_four networks requested previous =>
    rw [Work.next] at h
    split at h <;> exact h
  | replace_six networks requested previous =>
    rw [Work.next] at h
    split at h
    · exact h
    · cases h
  | restore_four networks previous =>
    rw [Work.next] at h
    split at h <;> exact h
  | restore_six networks previous failed =>
    rw [Work.next] at h
    split at h <;> cases h
  | ended result => exact h

/-- Six calls at most carry out a request. -/
theorem run_replace_with (networks : List IPNetwork) (requested : Families (List IPAddress))
    (pf : PF) : Work.run sha256 outcomes 6 (.show_four networks requested) pf =
      (.ended (replace_with sha256 outcomes (NetworkIndex.of_networks networks) requested pf).1,
        (replace_with sha256 outcomes (NetworkIndex.of_networks networks) requested pf).2) := by
  unfold replace_with
  rcases hread4 : read_table outcomes pf .four with ⟨r4, pf4⟩
  -- in the order of the calls; the work ends early when one of them fails
  cases r4 with
  | error e => rw [run_succ, Work.next, hread4, run_ended]
  | ok previous4 =>
    rw [run_succ, Work.next, hread4]
    dsimp only
    rcases hread6 : read_table outcomes pf4 .six with ⟨r6, pf6⟩
    cases r6 with
    | error e => rw [run_succ, Work.next, hread6, run_ended]
    | ok previous6 =>
      rw [run_succ, Work.next, hread6]
      dsimp only
      have hwanted : ((requested.map (effective (NetworkIndex.of_networks networks))).map
          (stdin_of IPAddress.str)) = (wanted networks requested).map (stdin_of IPAddress.str) := rfl
      rw [hwanted, replace_tables, Families.map]
      dsimp only
      rcases hset4 : command outcomes pf6 .four (.replace (stdin_of IPAddress.str
        (wanted networks requested).v4)) with ⟨s4, pf7⟩
      cases s4 with
      | error e =>
        rw [run_succ, Work.next, hset4]
        exact run_roll_back sha256 outcomes 1 networks ⟨previous4, previous6⟩ pf7
      | ok text4 =>
        rw [run_succ, Work.next, hset4]
        dsimp only
        rcases hset6 : command outcomes pf7 .six (.replace (stdin_of IPAddress.str
          (wanted networks requested).v6)) with ⟨s6, pf8⟩
        cases s6 with
        | error e =>
          rw [run_succ, Work.next, hset6]
          exact run_roll_back sha256 outcomes 0 networks ⟨previous4, previous6⟩ pf8
        | ok text6 =>
          rw [run_succ, Work.next, hset6, run_ended]
          rfl

end Next

/-- The helper that is left alone. -/
theorem carry_out_eq_run (env : Env) (outcomes : ℕ → Outcome) (file : Except ReadFailure Text)
    (authorized : Bool) (data : Text) (pf : PF) :
    Work.run env.sha256.hexdigest outcomes 6 (start env file authorized data) pf =
      (.ended (carry_out env outcomes file authorized data pf).1,
        (carry_out env outcomes file authorized data pf).2) := by
  unfold start carry_out PfHelper.replace
  cases receive env authorized data with
  | error e => exact run_ended _ _ _ _ _
  | ok request =>
    dsimp only
    cases parse_request request with
    | error e => exact run_ended _ _ _ _ _
    | ok requested =>
      dsimp only
      cases read_whitelist file with
      | error e => exact run_ended _ _ _ _ _
      | ok networks => exact run_replace_with _ _ _ _ _

/-! ## What the tables hold in between

A property of the addresses of a table is carried along: it has to be true of what was asked for
and of what was found, and to survive taking addresses out. Then no step can make it false,
whichever call fails. -/

/-- What is said about the addresses of a table. -/
abbrev Claim := Version → Set IPAddress → Prop

/-- The addresses a table holds, and those of entries. -/
def held (pf : PF) (version : Version) : Set IPAddress := {a | InTable (pf.tables version) a}

def addresses_of (entries : List IPNetwork) : Set IPAddress :=
  {a | ∃ n ∈ entries, network_address n = a}

/-- It stays true when what is whitelisted is taken out. -/
def Closed (P : Claim) (networks : List IPNetwork) : Prop :=
  ∀ version S, P version S → P version {a ∈ S | ¬ Covered networks a}

/-- It is true of what is asked for. -/
def Asked (P : Claim) (networks : List IPNetwork) (requested : Families (List IPAddress)) : Prop :=
  ∀ version, P version {a | a ∈ (wanted networks requested).get version}

/-- It was true of a table that was read. -/
def Found (P : Claim) (version : Version) (entries : List IPNetwork) : Prop :=
  (∀ n ∈ entries, is_host n = true) ∧ P version (addresses_of entries)

section Tables

variable {P : Claim} {sha256 : Text → Text} {outcomes : ℕ → Outcome}

theorem found_of_read {pf pf' : PF} {version : Version} {entries : List IPNetwork}
    (h : read_table outcomes pf version = (.ok entries, pf')) (hheld : P version (held pf version)) :
    Found P version entries := by
  have hentries := (read_table_spec h).2.2 entries rfl
  refine ⟨(host_entries_spec hentries).1, ?_⟩
  have heq : addresses_of entries = held pf version := by
    ext a
    exact (inTable_of_host_entries hentries a).symm
  rwa [heq]

/-- A call that replaces a table fails, or it is as it says; the other table is as before. -/
theorem held_replace {pf pf' : PF} {version : Version} {stdin : Text} {r : Except Raised Text}
    (h : command outcomes pf version (.replace stdin) = (r, pf')) :
    (∃ e, r = .error e ∧ held pf' = held pf) ∨
      ((∃ stdout, r = .ok stdout) ∧
        held pf' = Function.update (held pf) version {a | InTable stdin a}) := by
  obtain ⟨-, ⟨rfl, htables⟩ | ⟨e, rfl, -, htables⟩⟩ := command_spec h
  · refine Or.inr ⟨⟨_, rfl⟩, ?_⟩
    funext v
    rw [held, htables, PF.after]
    by_cases hv : v = version
    · subst hv
      rw [Function.update_self, Function.update_self]
    · rw [Function.update_of_ne hv, Function.update_of_ne hv, held]
  · refine Or.inl ⟨e, rfl, ?_⟩
    funext v
    rw [held, htables, held]

theorem held_read {pf pf' : PF} {version : Version} {r : Except Raised (List IPNetwork)}
    (h : read_table outcomes pf version = (r, pf')) : held pf' = held pf := by
  funext v
  rw [held, (read_table_spec h).1.tables, held]

theorem claim_update {held : Version → Set IPAddress} {version : Version} {S : Set IPAddress}
    (hheld : ∀ v, P v (held v)) (hS : P version S) : ∀ v, P v (Function.update held version S v) := by
  intro v
  by_cases hv : v = version
  · subst hv
    rwa [Function.update_self]
  · rw [Function.update_of_ne hv]
    exact hheld v

theorem Asked.stdin {networks : List IPNetwork} {requested : Families (List IPAddress)}
    (h : Asked P networks requested) (version : Version) :
    P version {a | InTable (stdin_of IPAddress.str ((wanted networks requested).get version)) a} := by
  have heq : {a | InTable (stdin_of IPAddress.str ((wanted networks requested).get version)) a} =
      {a | a ∈ (wanted networks requested).get version} := by
    ext a
    exact inTable_addresses _ a
  rw [heq]
  exact h version

/-- What is restored is what was found without what is whitelisted. -/
theorem Found.stdin {networks : List IPNetwork} {previous : Families (List IPNetwork)}
    (hclosed : Closed P networks) {version : Version} (h : Found P version (previous.get version)) :
    P version {a | InTable (stdin_of network_str ((restored networks previous).get version)) a} := by
  have heq : {a | InTable (stdin_of network_str ((restored networks previous).get version)) a} =
      {a ∈ addresses_of (previous.get version) | ¬ Covered networks a} := by
    ext a
    have hhosts : ∀ n ∈ safe (NetworkIndex.of_networks networks) (previous.get version),
        is_host n = true := fun n hn => h.1 n (List.mem_filter.mp hn).1
    rw [restored, Families.get_map]
    refine (inTable_networks hhosts a).trans ?_
    simp only [safe, List.mem_filter, decide_eq_true_eq, contains_iff]
    constructor
    · rintro ⟨n, ⟨hn, hcovered⟩, rfl⟩
      exact ⟨⟨n, hn, rfl⟩, hcovered⟩
    · rintro ⟨⟨n, hn, rfl⟩, hcovered⟩
      exact ⟨n, ⟨hn, hcovered⟩, rfl⟩
  rw [heq]
  exact hclosed version _ h.2

/-- It is true of everything the work may still apply. -/
def Supported (P : Claim) : Work → Prop
  | .show_four networks requested => Closed P networks ∧ Asked P networks requested
  | .show_six networks requested previous4 =>
      Closed P networks ∧ Asked P networks requested ∧ Found P .four previous4
  | .replace_four networks requested previous =>
      Closed P networks ∧ Asked P networks requested ∧
        ∀ version, Found P version (previous.get version)
  | .replace_six networks requested previous =>
      Closed P networks ∧ Asked P networks requested ∧
        ∀ version, Found P version (previous.get version)
  | .restore_four networks previous =>
      Closed P networks ∧ ∀ version, Found P version (previous.get version)
  | .restore_six networks previous _ =>
      Closed P networks ∧ ∀ version, Found P version (previous.get version)
  | .ended _ => True

theorem Asked.mono {Q : Claim} (hPQ : ∀ version S, P version S → Q version S)
    {networks : List IPNetwork} {requested : Families (List IPAddress)}
    (h : Asked P networks requested) : Asked Q networks requested :=
  fun version => hPQ version _ (h version)

theorem Found.mono {Q : Claim} (hPQ : ∀ version S, P version S → Q version S) {version : Version}
    {entries : List IPNetwork} (h : Found P version entries) : Found Q version entries :=
  ⟨h.1, hPQ version _ h.2⟩

theorem Supported.mono {Q : Claim} (hPQ : ∀ version S, P version S → Q version S) {work : Work}
    (hclosed : ∀ networks, work.networks = some networks → Closed Q networks)
    (h : Supported P work) : Supported Q work := by
  cases work with
  | show_four networks requested => exact ⟨hclosed networks rfl, h.2.mono hPQ⟩
  | show_six networks requested previous4 =>
    exact ⟨hclosed networks rfl, h.2.1.mono hPQ, h.2.2.mono hPQ⟩
  | replace_four networks requested previous =>
    exact ⟨hclosed networks rfl, h.2.1.mono hPQ, fun version => (h.2.2 version).mono hPQ⟩
  | replace_six networks requested previous =>
    exact ⟨hclosed networks rfl, h.2.1.mono hPQ, fun version => (h.2.2 version).mono hPQ⟩
  | restore_four networks previous =>
    exact ⟨hclosed networks rfl, fun version => (h.2 version).mono hPQ⟩
  | restore_six networks previous failed =>
    exact ⟨hclosed networks rfl, fun version => (h.2 version).mono hPQ⟩
  | ended result => exact trivial

/-- Reading a table leaves what is true of the tables. -/
theorem claim_of_read {pf pf' : PF} {version : Version} {r : Except Raised (List IPNetwork)}
    (h : read_table outcomes pf version = (r, pf')) (hheld : ∀ v, P v (held pf v)) :
    ∀ v, P v (held pf' v) := by
  rw [held_read h]
  exact hheld

/-- So does replacing a table, whether or not `pfctl` does it. -/
theorem claim_of_replace {pf pf' : PF} {version : Version} {text : Text} {r : Except Raised Text}
    (h : command outcomes pf version (.replace text) = (r, pf')) (hheld : ∀ v, P v (held pf v))
    (htext : P version {a | InTable text a}) : ∀ v, P v (held pf' v) := by
  obtain ⟨e, rfl, hsame⟩ | ⟨⟨stdout, rfl⟩, hsame⟩ := held_replace h
  · rw [hsame]
    exact hheld
  · rw [hsame]
    exact claim_update hheld htext

/-- A step keeps what is true of the tables and of what may still be applied. -/
theorem Supported.next {work : Work} {pf : PF} (h : Supported P work)
    (hheld : ∀ version, P version (held pf version)) :
    Supported P (work.next sha256 outcomes pf).1 ∧
      ∀ version, P version (held (work.next sha256 outcomes pf).2 version) := by
  cases work with
  | show_four networks requested =>
    rw [Work.next]
    rcases hread : read_table outcomes pf .four with ⟨r, pf'⟩
    have hheld' := claim_of_read hread hheld
    cases r with
    | error e => exact ⟨trivial, hheld'⟩
    | ok previous4 => exact ⟨⟨h.1, h.2, found_of_read hread (hheld .four)⟩, hheld'⟩
  | show_six networks requested previous4 =>
    rw [Work.next]
    rcases hread : read_table outcomes pf .six with ⟨r, pf'⟩
    have hheld' := claim_of_read hread hheld
    cases r with
    | error e => exact ⟨trivial, hheld'⟩
    | ok previous6 =>
      refine ⟨⟨h.1, h.2.1, ?_⟩, hheld'⟩
      intro version
      cases version with
      | four => exact h.2.2
      | six => exact found_of_read hread (hheld .six)
  | replace_four networks requested previous =>
    rw [Work.next]
    rcases hset : command outcomes pf .four (.replace (stdin_of IPAddress.str
      (wanted networks requested).v4)) with ⟨r, pf'⟩
    have hheld' := claim_of_replace hset hheld (h.2.1.stdin .four)
    -- a failure goes on with the rollback
    cases r with
    | error e => exact ⟨⟨h.1, h.2.2⟩, hheld'⟩
    | ok stdout => exact ⟨h, hheld'⟩
  | replace_six networks requested previous =>
    rw [Work.next]
    rcases hset : command outcomes pf .six (.replace (stdin_of IPAddress.str
      (wanted networks requested).v6)) with ⟨r, pf'⟩
    have hheld' := claim_of_replace hset hheld (h.2.1.stdin .six)
    cases r with
    | error e => exact ⟨⟨h.1, h.2.2⟩, hheld'⟩
    | ok stdout => exact ⟨trivial, hheld'⟩
  | restore_four networks previous =>
    rw [Work.next]
    rcases hset : command outcomes pf .four (.replace (stdin_of network_str
      (restored networks previous).v4)) with ⟨r, pf'⟩
    have hheld' := claim_of_replace hset hheld ((h.2 .four).stdin h.1)
    -- the other table is rolled back in any case
    cases r with
    | error e => exact ⟨h, hheld'⟩
    | ok stdout => exact ⟨h, hheld'⟩
  | restore_six networks previous failed =>
    rw [Work.next]
    rcases hset : command outcomes pf .six (.replace (stdin_of network_str
      (restored networks previous).v6)) with ⟨r, pf'⟩
    have hheld' := claim_of_replace hset hheld ((h.2 .six).stdin h.1)
    cases r with
    | error e => exact ⟨trivial, hheld'⟩
    | ok stdout => exact ⟨trivial, hheld'⟩
  | ended result => exact ⟨trivial, hheld⟩

/-- It is true of what is asked for, and of the tables as far as they have been replaced. An answer
that reports an error is plain text. -/
def Sets (P : Claim) (pf : PF) : Work → Prop
  | .show_four networks requested => Asked P networks requested
  | .show_six networks requested _ => Asked P networks requested
  | .replace_four networks requested _ => Asked P networks requested
  | .replace_six networks requested _ => Asked P networks requested ∧ P .four (held pf .four)
  | .restore_four _ _ => True
  | .restore_six _ _ _ => True
  | .ended (.ok _) => ∀ version, P version (held pf version)
  | .ended (.error e) => PlainText (error_message e)

theorem Sets.mono {Q : Claim} (hPQ : ∀ version S, P version S → Q version S) {work : Work} {pf : PF}
    (h : Sets P pf work) : Sets Q pf work := by
  cases work with
  | show_four networks requested => exact Asked.mono hPQ h
  | show_six networks requested previous4 => exact Asked.mono hPQ h
  | replace_four networks requested previous => exact Asked.mono hPQ h
  | replace_six networks requested previous => exact ⟨h.1.mono hPQ, hPQ _ _ h.2⟩
  | restore_four networks previous => exact trivial
  | restore_six networks previous failed => exact trivial
  | ended result =>
    cases result with
    | ok a => exact fun version => hPQ _ _ (h version)
    | error e => exact h

theorem Sets.next {work : Work} {pf : PF} (h : Sets P pf work) :
    Sets P (work.next sha256 outcomes pf).2 (work.next sha256 outcomes pf).1 := by
  cases work with
  | show_four networks requested =>
    rw [Work.next]
    rcases hread : read_table outcomes pf .four with ⟨r, pf'⟩
    cases r with
    -- an error ends the request, and its text is printable
    | error e => exact ((read_table_spec hread).2.1 e rfl).2.2
    | ok previous4 => exact h
  | show_six networks requested previous4 =>
    rw [Work.next]
    rcases hread : read_table outcomes pf .six with ⟨r, pf'⟩
    cases r with
    | error e => exact ((read_table_spec hread).2.1 e rfl).2.2
    | ok previous6 => exact h
  | replace_four networks requested previous =>
    rw [Work.next]
    rcases hset : command outcomes pf .four (.replace (stdin_of IPAddress.str
      (wanted networks requested).v4)) with ⟨r, pf'⟩
    obtain ⟨e, rfl, -⟩ | ⟨⟨stdout, rfl⟩, hsame⟩ := held_replace hset
    · exact trivial
    · refine ⟨h, ?_⟩
      rw [hsame, Function.update_self]
      exact Asked.stdin h .four
  | replace_six networks requested previous =>
    rw [Work.next]
    rcases hset : command outcomes pf .six (.replace (stdin_of IPAddress.str
      (wanted networks requested).v6)) with ⟨r, pf'⟩
    obtain ⟨e, rfl, -⟩ | ⟨⟨stdout, rfl⟩, hsame⟩ := held_replace hset
    · exact trivial
    · intro version
      rw [hsame]
      cases version with
      -- the other table was set by the call before
      | four => exact h.2
      | six =>
        rw [Function.update_self]
        exact h.1.stdin .six
  | restore_four networks previous =>
    rw [Work.next]
    rcases command outcomes pf .four (.replace (stdin_of network_str
      (restored networks previous).v4)) with ⟨r, pf'⟩
    cases r <;> exact trivial
  | restore_six networks previous failed =>
    rw [Work.next]
    rcases command outcomes pf .six (.replace (stdin_of network_str
      (restored networks previous).v6)) with ⟨r, pf'⟩
    cases r with
    | error e => exact (by decide : PlainText (error_message rollback_failed))
    | ok stdout =>
      cases failed with
      | true => exact (by decide : PlainText (error_message rollback_failed))
      | false => exact (by decide : PlainText (error_message rollback_completed))
  | ended result => exact h

end Tables

/-! ## The ends of an exchange

What arrives of a request, and what of its answer. A part of a request starts no work, and a part
of an answer is no response. -/

section Exchange

variable {env : Env} {file : Except ReadFailure Text}

/-- Of a request of which only a part arrives nothing is done. -/
theorem start_line {addresses : Families (List IPAddress)} (haddresses : Requestable addresses)
    (hfits : (line_of env addresses).length ≤ MAX_MESSAGE) (authorized : Bool) (n : ℕ) :
    (∃ e, start env file authorized ((line_of env addresses).take n) = .ended (.error e) ∧
        PlainText (error_message e)) ∨
      ∃ networks, start env file authorized ((line_of env addresses).take n) =
        .show_four networks addresses := by
  unfold start
  cases authorized with
  | false =>
    rw [receive, if_pos (by simp)]
    exact Or.inl ⟨_, rfl, by decide⟩
  | true =>
    rcases receive_line n hfits with hreceive | hreceive
    · rw [hreceive]
      dsimp only
      rw [parse_request_of haddresses]
      dsimp only
      cases hread : read_whitelist file with
      | error e => exact Or.inl ⟨e, rfl, (read_whitelist_early hread).2.2⟩
      | ok networks => exact Or.inr ⟨networks, rfl⟩
    · rw [hreceive]
      exact Or.inl ⟨_, rfl, by decide⟩

variable (env)

/-- What the server makes of the first `returned` bytes of an answer. -/
def answer_read (result : Except Raised Applied) (returned : ℕ) : Except AttemptError Response :=
  (read_response env ((dumps env.floats (response result) ++ ['\n']).take returned)).bind
    _validate_response

/-- The same, or an `OSError` instead. -/
def exchange_read (result : Except Raised Applied) : Option ℕ → Except AttemptError Response
  | none => .error .os_error
  | some returned => answer_read env result returned

/-- An attempt is what the helper does and what the server reads of its answer. -/
theorem attempt_eq (outcomes : ℕ → Outcome) (exchange : Exchange) (request : Text) (pf : PF) :
    attempt env outcomes file exchange request pf =
      (exchange_read env (carry_out env outcomes file exchange.authorized
          (request.take exchange.received) pf).1 exchange.returned,
        (carry_out env outcomes file exchange.authorized (request.take exchange.received) pf).2) := by
  unfold attempt handle
  cases exchange.returned <;> rfl

/-- Only an answer to a request that was carried out is a response. -/
theorem answer_read_ok {result : Except Raised Applied} {returned : ℕ} {r : Response}
    (hplain : ∀ e, result = .error e → PlainText (error_message e))
    (h : answer_read env result returned = .ok r) : ∃ a, result = .ok a := by
  cases result with
  | ok a => exact ⟨a, rfl⟩
  | error e =>
    obtain ⟨value, hvalue, hvalidate⟩ := bind_eq_ok.mp h
    rw [read_answer (wire_refusal (hplain e rfl)) (by decide : 1 ≤ 3) _ hvalue] at hvalidate
    obtain ⟨m, hm⟩ := validate_refusal e
    rw [hm] at hvalidate
    cases hvalidate

end Exchange

end F2bguard.HelperSteps
