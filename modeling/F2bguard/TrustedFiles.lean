/-
The files that the guard trusts.

`secure_read` (`pf_helper.py`), `_secure_read_root_file` (`server.py`) and `load_config` (`config.py`)
read a file only after they have looked at each directory above it. Each look is a system call of its
own, and so are the open and the reads; other processes run in between.

Such a read is as good as one at one moment (`secure_file_meets`), provided that what the others do
leaves the directories on the way and the opened file alone. Processes of other users cannot do
otherwise, once the directories have passed: whatever these do, in whatever order, the three readers
get the file that the path named when they started, or fail as they would have then
(`secure_file_atomic`).
-/
import F2bguard.FileSystem
import F2bguard.RelyGuarantee
import F2bguard.ReceiverConfig
import F2bguard.HelperClient

set_option autoImplicit false

namespace F2bguard.TrustedFiles

open F2bguard.PyText F2bguard.PyJson F2bguard.Runs F2bguard.FileSystem F2bguard.RelyGuarantee
open F2bguard.Whitelist (EnforcementError ReadFailure)
open F2bguard.HelperClient (Failed)

/-! ## Reading

The three readers are one program with different checks. It looks at each directory from the root
to the file with `lstat`, opens the file without following a link, looks at what it got with
`fstat`, and reads. -/

/-- What one of the readers asks of its file, and what it raises. -/
structure Check (ν β ε δ : Type) where
  owner : ℕ
  not_absolute : ε
  unsafe_parent : List ν → ε
  /-- `OSError` from a directory or the open -/
  not_opened : Errno → ε
  /-- `OSError` after that -/
  not_read : Errno → ε
  file : Stat → Except ε Unit
  /-- the argument of `read` -/
  limit : ℕ
  data : List β → Except ε δ

structure Path (ν : Type) where
  absolute : Bool
  names : List ν

/-- `reversed(path.parents)` -/
def Path.parents {ν : Type} (path : Path ν) : List (List ν) := path.names.inits.dropLast

theorem inits_dropLast_cons {ν : Type} (name : ν) (rest : List ν) :
    (name :: rest).inits.dropLast = [] :: rest.inits.dropLast.map (name :: ·) := by
  have hne : rest.inits.map (name :: ·) ≠ [] := by cases rest <;> simp
  rw [List.inits, List.dropLast_cons_of_ne_nil hne, List.map_dropLast]

section Program

variable {ν β ε δ : Type}

/-- `stat.S_ISDIR(info.st_mode) and info.st_uid == owner and not info.st_mode & 0o022` -/
def safe_directory (owner : ℕ) (info : Stat) : Bool :=
  info.kind = .directory && info.uid = owner && info.mode &&& 0o022 = 0

/-- The loop over the directories. -/
def check_parents (check : Check ν β ε δ) (next : Prog (Call ν β) Answer (Except ε δ)) :
    List (List ν) → Prog (Call ν β) Answer (Except ε δ)
  | [] => next
  | parent :: parents => .call (.lstat parent) fun
    | .error e => .done (.error (check.not_opened e))
    | .ok info =>
      if safe_directory check.owner info then check_parents check next parents
      else .done (.error (check.unsafe_parent parent))

/-- `stream.read(limit)`: reads until the end or the limit. Each but the last gets a byte, so `limit`
of them are enough. -/
def read_stream (check : Check ν β ε δ) (fd : ℕ) : ℕ → List β → Prog (Call ν β) Answer (Except ε δ)
  | 0, data => .done (check.data data)
  | left + 1, data =>
    if check.limit ≤ data.length then .done (check.data data)
    else .call (.read fd data.length (check.limit - data.length)) fun
      | .error e => .done (.error (check.not_read e))
      | .ok chunk =>
        if chunk.isEmpty then .done (check.data data) else read_stream check fd left (data ++ chunk)

/-- With the descriptor: `fstat`, the check of the file, and the reading. -/
def read_opened (check : Check ν β ε δ) (fd : ℕ) : Prog (Call ν β) Answer (Except ε δ) :=
  .call (.fstat fd) fun
    | .error e => .done (.error (check.not_read e))
    | .ok info => match check.file info with
      | .error e => .done (.error e)
      | .ok () => read_stream check fd check.limit []

/-- `os.open(path, os.O_RDONLY | os.O_NOFOLLOW | …)` -/
def open_file (check : Check ν β ε δ) (path : List ν) : Prog (Call ν β) Answer (Except ε δ) :=
  .call (.open_nofollow path) fun
    | .error e => .done (.error (check.not_opened e))
    | .ok fd => read_opened check fd

/-- The whole of a reader. A path that is not absolute is refused before any call. -/
def secure_file (check : Check ν β ε δ) (path : Path ν) : Prog (Call ν β) Answer (Except ε δ) :=
  if path.absolute then check_parents check (open_file check path.names) path.parents
  else .done (.error check.not_absolute)

end Program

/-! ## The three readers

Their checks in the words of each, with its messages. They differ in what they ask of the mode:
the helper and the server refuse files that others may write, `load_config` wants exactly 0640. -/

/-- `secure_read(path, owner)` of the helper -/
def secure_read (owner : ℕ) : Check Text Char Whitelist.Raised Text where
  owner
  not_absolute := ReadFailure.raised .not_absolute
  unsafe_parent _ := ReadFailure.raised .unsafe_parent
  not_opened _ := ReadFailure.raised .os_error
  not_read _ := ReadFailure.raised .os_error
  file info :=
    if ¬ (info.kind = .regular ∧ info.uid = owner ∧ info.mode &&& 0o022 = 0) then
      .error (ReadFailure.raised .unsafe_file)
    else if PfHelper.MAX_MESSAGE < info.size then .error (ReadFailure.raised .too_large)
    else .ok ()
  limit := PfHelper.MAX_MESSAGE + 1
  data data := Whitelist.secure_read (.ok data)

/-- `_secure_read_root_file(path, maximum)` of the server -/
def _secure_read_root_file (maximum : ℕ) : Check Text Char Failed Text where
  owner := 0
  not_absolute := .enforcement_error ⟨"whitelist path must be absolute".toList⟩
  unsafe_parent _ := .enforcement_error ⟨"unsafe whitelist parent directory".toList⟩
  not_opened _ := .enforcement_error ⟨"whitelist is missing or inaccessible".toList⟩
  not_read _ := .other
  file info :=
    if ¬ (info.kind = .regular ∧ info.uid = 0 ∧ info.mode &&& 0o022 = 0) then
      .error (.enforcement_error ⟨"unsafe whitelist file".toList⟩)
    else if maximum < info.size then
      .error (.enforcement_error ⟨"whitelist exceeds size limit".toList⟩)
    else .ok ()
  limit := maximum + 1
  data data :=
    if maximum < data.length then .error (.enforcement_error ⟨"whitelist exceeds size limit".toList⟩)
    else .ok data

/-- What leaves `load_config`: a `ConfigError`, what `json.loads` raises besides, or an `OSError` of
the file once it is open. -/
inductive LoadFailed
  | load (e : Server.LoadError)
  | os_error
  deriving DecidableEq

def config_error (message : Text) : LoadFailed := .load (.config_error message)

/-- `str(path)` -/
def path_text (names : List Text) : Text := '/' :: "/".toList.intercalate names

/-- What `load_config` runs with: `str(exc)` of an `OSError`, the reading of floats, and how
`json.loads` decodes bytes. -/
structure LoadEnv where
  os_error_text : Errno → Text
  decode : Text → Option Text
  floats : FloatText
  max_depth : ℕ

/-- `load_config` -/
def load_config (env : LoadEnv) : Check Text Char LoadFailed ReceiverConfig.Config where
  owner := 0
  not_absolute := config_error "config path must be absolute".toList
  unsafe_parent parent :=
    config_error ("unsafe config parent directory: ".toList ++ path_text parent)
  not_opened e := config_error ("cannot securely open config: ".toList ++ env.os_error_text e)
  not_read _ := .os_error
  file info :=
    if info.kind ≠ .regular then .error (config_error "config must be a regular file".toList)
    else if info.uid ≠ 0 then .error (config_error "config must be owned by root".toList)
    else if info.mode ≠ 0o640 then .error (config_error "config mode must be 0640".toList)
    else .ok ()
  limit := 1048577
  data data :=
    if 1048576 < data.length then .error (config_error "config exceeds 1 MiB".toList)
    else match env.decode data with
      | none => .error (config_error "invalid JSON".toList)
      | some text =>
        ((loads (Server.strict_decoder env.floats env.max_depth) text).mapError .load).bind fun raw =>
          (ReceiverConfig.parse_config raw).mapError config_error

/-! ## A read beside others

That such a loop of checks means anything is not clear, since a directory that has passed may be
replaced before the next call. It is not replaced if it is trusted: who could do so must write to
the one above it, which has passed before. The induction over the path carries this along, and the
result refers to one moment (`AtOnce`). -/

section Reading

variable {ν β ε δ : Type}

/-- What a read gets that nothing interrupts. -/
def Reads (check : Check ν β ε δ) (c : Cred) (fs : FS ν β) (path : Path ν) (d : δ) : Prop :=
  path.absolute = true ∧ ∃ i n contents, Way check.owner c fs root path.names i ∧
    fs.inodes i = some n ∧ n.content = .regular contents ∧ n.grants c 2 = true ∧
    check.file n.stat = .ok () ∧ check.data (contents.take check.limit) = .ok d

/-- A file that passes is a regular file, and only the owner may write to it. -/
def Check.Trusting (check : Check ν β ε δ) : Prop :=
  ∀ info, check.file info = .ok () →
    info.kind = .regular ∧ info.uid = check.owner ∧ info.mode &&& 0o022 = 0

theorem secure_read_trusting (owner : ℕ) : (secure_read owner).Trusting := by
  intro info h
  simp only [secure_read] at h
  split at h
  · cases h
  · rename_i hsafe
    exact not_not.mp hsafe

theorem secure_read_root_file_trusting (maximum : ℕ) : (_secure_read_root_file maximum).Trusting := by
  intro info h
  simp only [_secure_read_root_file] at h
  split at h
  · cases h
  · rename_i hsafe
    exact not_not.mp hsafe

theorem load_config_trusting (env : LoadEnv) : (load_config env).Trusting := by
  intro info h
  simp only [load_config] at h
  split at h
  · cases h
  split at h
  · cases h
  split at h
  · cases h
  rename_i hkind huid hmode
  refine ⟨not_not.mp hkind, not_not.mp huid, ?_⟩
  rw [not_not.mp hmode]
  rfl

/-- There is a trusted directory at the end of a way through such directories. -/
def Reaches (owner : ℕ) (c : Cred) (fs : FS ν β) (names : List ν) (d : ℕ) : Prop :=
  Way owner c fs root names d ∧ ∃ n, fs.inodes d = some n ∧ n.Trusted owner

section Reaches

variable {owner : ℕ} {c : Cred} {fs : FS ν β} {names : List ν} {d : ℕ}

/-- The kernel gets to the end of the way, and goes on from there. -/
theorem Reaches.resolve_append (h : Reaches owner c fs names d) (nofollow : Bool) (rest : List ν) :
    fs.resolve c nofollow (names ++ rest) = fs.lookup c nofollow MAXSYMLINKS d rest := by
  obtain ⟨hway, n, hn, htrusted⟩ := h
  have hlink : n.content.kind ≠ .symlink := by
    rw [htrusted.directory]
    exact nofun
  exact lookup_of_way hway hn hlink rest MAXSYMLINKS

theorem Reaches.resolve (h : Reaches owner c fs names d) (nofollow : Bool) :
    fs.resolve c nofollow names = .ok d := by
  have hend := h.resolve_append nofollow []
  rw [List.append_nil] at hend
  exact hend

theorem Reaches.is_dir (h : Reaches owner c fs names d) : fs.is_dir c names = true := by
  rw [FS.is_dir, h.resolve]
  obtain ⟨-, n, hn, htrusted⟩ := h
  dsimp only
  rw [hn, Option.any_some, decide_eq_true htrusted.directory]

end Reaches

/-- The others leave alone the directories above the path, and the file that it names. -/
structure Undisturbed {σ : Type} (R : σ → σ → Prop) (fs : σ → FS ν β) (owner : ℕ) (c : Cred)
    (names : List ν) : Prop where
  directory : ∀ w w' above name d, above ++ [name] <+: names → R w w' →
    Reaches owner c (fs w) above d → Reaches owner c (fs w') above d
  file : ∀ w w' i n, R w w' → Way owner c (fs w) root names i → n.Owned owner →
    n.content.kind = .regular → ((fs w).inodes i = some n ↔ (fs w').inodes i = some n)

/-- The kernel finds what the path names: each directory above it has passed. -/
def Ready (owner : ℕ) (c : Cred) (fs : FS ν β) (names : List ν) : Prop :=
  names = [] ∨ ∃ above name d, names = above ++ [name] ∧ Reaches owner c fs above d

theorem resolve_iff {owner : ℕ} {c : Cred} {fs : FS ν β} {names : List ν} (h : Ready owner c fs names)
    {i : ℕ} : fs.resolve c true names = .ok i ↔ Way owner c fs root names i := by
  rcases h with rfl | ⟨above, name, d, rfl, hway, n, hn, htrusted⟩
  · constructor
    · intro h
      cases h
      exact Way.nil root
    · intro h
      cases h
      rfl
  · have hlink : n.content.kind ≠ .symlink := by
      rw [htrusted.directory]
      exact fun h => (by cases h)
    rw [resolve_of_way hway hn hlink, entry_eq_ok]
    constructor
    · rintro ⟨m, entries, hm, hentries, hsearch, hname⟩
      rw [hn] at hm
      cases hm
      exact hway.append (Way.cons hn hentries htrusted.toOwned hsearch hname (Way.nil i))
    · intro h
      obtain ⟨d', hway', hlast⟩ := h.of_append
      cases hway.unique hway'
      cases hlast with
      | cons hm hentries howned hsearch hname hrest =>
        cases hrest
        exact ⟨_, _, hm, hentries, hsearch, hname⟩

theorem safe_directory_iff {owner : ℕ} {n : Inode ν β} :
    safe_directory owner n.stat = true ↔ n.Trusted owner := by
  rw [safe_directory, Bool.and_eq_true, Bool.and_eq_true, decide_eq_true_eq, decide_eq_true_eq,
    decide_eq_true_eq]
  exact ⟨fun ⟨⟨hkind, huid⟩, hmode⟩ => ⟨⟨huid, hmode⟩, hkind⟩,
    fun h => ⟨⟨h.directory, h.uid⟩, h.mode⟩⟩

/-- A directory passes exactly when it is a trusted one. -/
theorem lstat_safe_iff {owner : ℕ} {c : Cred} {fs : FS ν β} {names : List ν}
    (h : Ready owner c fs names) : (∃ info, fs.lstat c names = .ok info ∧
      safe_directory owner info = true) ↔ ∃ b, Reaches owner c fs names b := by
  have hresolve : ∀ i, fs.resolve c true names = .ok i ↔ Way owner c fs root names i :=
    fun i => resolve_iff h
  constructor
  · rintro ⟨info, hinfo, hsafe⟩
    rw [FS.lstat] at hinfo
    cases hi : fs.resolve c true names with
    | error e =>
      rw [hi] at hinfo
      cases hinfo
    | ok i =>
      rw [hi] at hinfo
      dsimp only [Except.bind] at hinfo
      cases hn : fs.inodes i with
      | none =>
        rw [hn] at hinfo
        cases hinfo
      | some n =>
        rw [hn] at hinfo
        cases hinfo
        exact ⟨i, (hresolve i).mp hi, n, hn, safe_directory_iff.mp hsafe⟩
  · rintro ⟨b, hway, n, hn, htrusted⟩
    refine ⟨n.stat, ?_, safe_directory_iff.mpr htrusted⟩
    rw [FS.lstat, (hresolve b).mpr hway]
    dsimp only [Except.bind]
    rw [hn]
    rfl

/-- The directories on the way to a file are trusted. -/
theorem reaches_of_way {owner : ℕ} {c : Cred} {fs : FS ν β} {above rest : List ν} {name : ν} {i : ℕ}
    (h : Way owner c fs root (above ++ name :: rest) i) : ∃ b, Reaches owner c fs above b := by
  obtain ⟨b, habove, hrest⟩ := h.of_append
  cases hrest with
  | cons hn hentries howned hsearch hname hrest =>
    exact ⟨b, habove, _, hn, howned, by rw [hentries]; rfl⟩

/-- The calls of a reader. -/
def IsReading : Call ν β → Prop
  | .lstat _ => True
  | .open_nofollow _ => True
  | .fstat _ => True
  | .read _ _ _ => True
  | _ => False

end Reading

section Meets

variable {σ ν β ε δ : Type} [DecidableEq ν] {exec : Exec σ (Call ν β) Answer} {R G : σ → σ → Prop}
  {fs : σ → FS ν β} {c : Cred} {check : Check ν β ε δ} {path : Path ν}

/-- The result is that of a read at one moment since `w₀`. -/
def AtOnce (R : σ → σ → Prop) (fs : σ → FS ν β) (c : Cred) (check : Check ν β ε δ) (path : Path ν)
    (w₀ : σ) (r : Except ε δ) (w : σ) : Prop :=
  ∃ w₁, R w₀ w₁ ∧ R w₁ w ∧ ∀ d, r = .ok d ↔ Reads check c (fs w₁) path d

/-- How the world runs the calls of a reader. -/
structure Runs (exec : Exec σ (Call ν β) Answer) (fs : σ → FS ν β) (c : Cred) (R G : σ → σ → Prop) :
    Prop where
  preordered : Preordered R
  same : ∀ w, G w w
  reading : ∀ {call : Call ν β} {w : σ} {x : Answer call} {w' : σ}, IsReading call → exec call w x w' →
    w' = w ∧ Effect c (fs w) call x (fs w)

variable (hruns : Runs exec fs c R G) (htrusting : check.Trusting)
  (hquiet : Undisturbed R fs check.owner c path.names)

include hruns htrusting hquiet

/-- The file is read to its end or to the limit, whatever the lengths of the reads. -/
theorem read_stream_meets {w₀ w₁ : σ} {fd : ℕ} {n : Inode ν β} {contents : List β} (h₁ : R w₀ w₁)
    (habsolute : path.absolute = true) (hway : Way check.owner c (fs w₁) root path.names fd)
    (hn : (fs w₁).inodes fd = some n) (hcontents : n.content = .regular contents)
    (hgrants : n.grants c 2 = true) (hfile : check.file n.stat = .ok ()) :
    ∀ (left : ℕ) (data : List β) (w : σ), R w₁ w → data <+: contents.take check.limit →
      check.limit ≤ data.length + left →
      Meets exec R G (AtOnce R fs c check path w₀) (read_stream check fd left data) w := by
  obtain ⟨hkind, huid, hmode⟩ := htrusting _ hfile
  have howned : n.Owned check.owner := ⟨huid, hmode⟩
  -- at `w₁` an undisturbed read gets what is read here
  have hdone : ∀ (data : List β) (w : σ), R w₁ w → data = contents.take check.limit →
      Meets exec R G (AtOnce R fs c check path w₀) (.done (check.data data)) w := by
    intro data w hw hdata w' hw'
    refine ⟨w₁, h₁, hruns.preordered.trans hw hw', fun d => ?_⟩
    constructor
    · intro hd
      exact ⟨habsolute, fd, n, contents, hway, hn, hcontents, hgrants, hfile, hdata ▸ hd⟩
    · rintro ⟨-, i, m, contents', hway', hm, hcontents', -, -, hd⟩
      cases hway.unique hway'
      rw [hn] at hm
      cases hm
      rw [hcontents] at hcontents'
      cases hcontents'
      rw [hdata]
      exact hd
  have hwhole : ∀ data : List β, data <+: contents.take check.limit → check.limit ≤ data.length →
      data = contents.take check.limit := by
    intro data hprefix hlimit
    refine hprefix.eq_of_length_le ?_
    rw [List.length_take]
    omega
  intro left
  induction left with
  | zero =>
    intro data w hw hprefix hleft
    exact hdone data w hw (hwhole data hprefix hleft)
  | succ left ih =>
    intro data w hw hprefix hleft
    rw [read_stream]
    split
    · rename_i hlimit
      exact hdone data w hw (hwhole data hprefix hlimit)
    · rename_i hlimit
      intro w₂ hw₂ x w₃ hcall
      obtain ⟨rfl, heffect⟩ := hruns.reading
        (show IsReading (.read fd data.length (check.limit - data.length)) from trivial) hcall
      have hw₂ := hruns.preordered.trans hw hw₂
      have hsame := (hquiet.file w₁ w₃ fd n hw₂ hway howned hkind).mp hn
      refine ⟨hruns.same w₃, ?_⟩
      cases heffect with
      | read h =>
        cases h with
        | other e hm hother =>
          rw [hsame] at hm
          cases hm
          exact absurd hkind hother
        | @data m contents' chunk hm hcontents' hchunk hend =>
          rw [hsame] at hm
          cases hm
          rw [hcontents] at hcontents'
          cases hcontents'
          -- what is left of the file up to the limit
          have hrest : (contents.drop data.length).take (check.limit - data.length) =
              (contents.take check.limit).drop data.length := (List.drop_take ..).symm
          obtain ⟨tail, htail⟩ := hprefix
          rw [hrest, ← htail, List.drop_left] at hchunk hend
          dsimp only
          split
          · rename_i hempty
            have htail_nil := hend (List.isEmpty_iff.mp hempty)
            rw [htail_nil, List.append_nil] at htail
            exact hdone data w₃ hw₂ htail
          · rename_i hempty
            refine ih (data ++ chunk) w₃ hw₂ ?_ ?_
            · rw [← htail]
              exact (List.prefix_append_right_inj data).mpr hchunk
            · have hpos : 0 < chunk.length := List.length_pos_iff.mpr (fun h => hempty (by simp [h]))
              rw [List.length_append]
              omega

/-- The file is open. -/
theorem read_opened_meets {w₀ w₁ w : σ} {fd : ℕ} {n : Inode ν β} (h₁ : R w₀ w₁)
    (habsolute : path.absolute = true) (hway : Way check.owner c (fs w₁) root path.names fd)
    (hn : (fs w₁).inodes fd = some n) (hgrants : n.grants c 2 = true) (hw : R w₁ w) :
    Meets exec R G (AtOnce R fs c check path w₀) (read_opened check fd) w := by
  intro w₂ hw₂ x w₃ hcall
  obtain ⟨rfl, heffect⟩ := hruns.reading (show IsReading (.fstat fd) from trivial) hcall
  have hw₂ := hruns.preordered.trans hw hw₂
  -- a file that does not pass now could not be read at `w₁` either
  have hrefused : ∀ e, (∀ m, (fs w₃).inodes fd = some m → check.file m.stat ≠ .ok ()) →
      Meets exec R G (AtOnce R fs c check path w₀) (.done (.error e)) w₃ := by
    intro e hbad w' hw'
    refine ⟨w₁, h₁, hruns.preordered.trans hw₂ hw', fun d => iff_of_false (fun h => (by cases h)) ?_⟩
    rintro ⟨-, i, m, contents, hway', hm, hcontents, -, hfile, -⟩
    cases hway.unique hway'
    obtain ⟨hkind, huid, hmode⟩ := htrusting _ hfile
    exact hbad m ((hquiet.file w₁ w₃ fd m hw₂ hway ⟨huid, hmode⟩ hkind).mp hm) hfile
  refine ⟨hruns.same w₃, ?_⟩
  cases heffect
  cases hm : (fs w₃).inodes fd with
  | none =>
    rw [FS.fstat, hm]
    exact hrefused _ (fun m hm' => (by rw [hm] at hm'; cases hm'))
  | some m =>
    rw [FS.fstat, hm, Option.map_some, Option.elim_some]
    dsimp only
    cases hfile : check.file m.stat with
    | error e =>
      refine hrefused e (fun m' hm' => ?_)
      rw [hm] at hm'
      cases hm'
      rw [hfile]
      exact fun h => (by cases h)
    | ok _ =>
      obtain ⟨hkind, huid, hmode⟩ := htrusting _ hfile
      have hsame := (hquiet.file w₁ w₃ fd m hw₂ hway ⟨huid, hmode⟩ hkind).mpr hm
      rw [hn] at hsame
      cases hsame
      cases hcontents : n.content with
      | regular contents =>
        exact read_stream_meets hruns htrusting hquiet h₁ habsolute hway hn hcontents hgrants hfile
          check.limit [] w₃ hw₂ List.nil_prefix (by simp)
      | _ =>
        have hkind : n.content.kind = .regular := hkind
        rw [hcontents] at hkind
        cases hkind

theorem open_file_meets {w₀ w : σ} (hw : R w₀ w) (habsolute : path.absolute = true)
    (hready : ∀ w', R w w' → Ready check.owner c (fs w') path.names) :
    Meets exec R G (AtOnce R fs c check path w₀) (open_file check path.names) w := by
  intro w₁ hw₁ x w' hcall
  obtain ⟨rfl, heffect⟩ := hruns.reading (show IsReading (.open_nofollow path.names) from trivial) hcall
  have h₁ := hruns.preordered.trans hw hw₁
  have hresolve : ∀ i, (fs w').resolve c true path.names = .ok i ↔
      Way check.owner c (fs w') root path.names i := fun i => resolve_iff (hready w' hw₁)
  refine ⟨hruns.same w', ?_⟩
  cases heffect
  cases hopen : (fs w').open_nofollow c path.names with
  | error e =>
    intro w₂ hw₂
    refine ⟨w', h₁, hw₂, fun d => iff_of_false (fun h => (by cases h)) ?_⟩
    rintro ⟨-, i, n, contents, hway, hn, hcontents, hgrants, -, -⟩
    rw [FS.open_nofollow, (hresolve i).mpr hway] at hopen
    dsimp only [Except.bind] at hopen
    rw [hn] at hopen
    dsimp only at hopen
    rw [if_neg (by rw [hcontents]; exact fun h => (by cases h)), if_pos hgrants] at hopen
    cases hopen
  | ok fd =>
    rw [FS.open_nofollow] at hopen
    cases hi : (fs w').resolve c true path.names with
    | error e =>
      rw [hi] at hopen
      cases hopen
    | ok i =>
      rw [hi] at hopen
      dsimp only [Except.bind] at hopen
      cases hn : (fs w').inodes i with
      | none =>
        rw [hn] at hopen
        cases hopen
      | some n =>
        rw [hn] at hopen
        dsimp only at hopen
        split at hopen
        · cases hopen
        split at hopen
        · rename_i hgrants
          cases hopen
          exact read_opened_meets hruns htrusting hquiet h₁ habsolute ((hresolve fd).mp hi) hn hgrants
            (hruns.preordered.refl w')
        · cases hopen

omit htrusting hquiet in
/-- One turn of the loop. -/
theorem check_parent_meets {w₀ w : σ} {parents : List (List ν)} {parent rest : List ν} {name : ν}
    (hw : R w₀ w) (hnames : path.names = parent ++ name :: rest)
    (hready : ∀ w', R w w' → Ready check.owner c (fs w') parent)
    (hnext : ∀ w' b, R w w' → Reaches check.owner c (fs w') parent b → Meets exec R G
      (AtOnce R fs c check path w₀) (check_parents check (open_file check path.names) parents) w') :
    Meets exec R G (AtOnce R fs c check path w₀)
      (check_parents check (open_file check path.names) (parent :: parents)) w := by
  intro w₁ hw₁ x w' hcall
  obtain ⟨rfl, heffect⟩ := hruns.reading (show IsReading (.lstat parent) from trivial) hcall
  have h₁ := hruns.preordered.trans hw hw₁
  have hsafe := lstat_safe_iff (hready w' hw₁)
  -- what does not pass now makes a read at this moment fail
  have hrefused : ∀ e, (¬ ∃ b, Reaches check.owner c (fs w') parent b) →
      Meets exec R G (AtOnce R fs c check path w₀) (.done (.error e)) w' := by
    intro e hbad w₂ hw₂
    refine ⟨w', h₁, hw₂, fun d => iff_of_false (fun h => (by cases h)) ?_⟩
    rintro ⟨-, i, n, contents, hway, -⟩
    rw [hnames] at hway
    exact hbad (reaches_of_way hway)
  refine ⟨hruns.same w', ?_⟩
  cases heffect
  cases hinfo : (fs w').lstat c parent with
  | error e =>
    refine hrefused _ (fun h => ?_)
    obtain ⟨info, hok, -⟩ := hsafe.mpr h
    rw [hinfo] at hok
    cases hok
  | ok info =>
    dsimp only
    split
    · rename_i hpass
      obtain ⟨b, hb⟩ := hsafe.mp ⟨info, hinfo, hpass⟩
      exact hnext w' b hw₁ hb
    · rename_i hfail
      refine hrefused _ (fun h => ?_)
      obtain ⟨info', hok, hpass⟩ := hsafe.mpr h
      rw [hinfo] at hok
      cases hok
      exact hfail hpass

/-- The rest of the loop: `above` has passed. -/
theorem check_parents_meets {w₀ : σ} (habsolute : path.absolute = true) :
    ∀ (rest above : List ν) (name : ν) (d : ℕ) (w : σ), path.names = above ++ name :: rest → R w₀ w →
      Reaches check.owner c (fs w) above d →
      Meets exec R G (AtOnce R fs c check path w₀) (check_parents check (open_file check path.names)
        (rest.inits.dropLast.map (fun names => above ++ name :: names))) w := by
  intro rest
  induction rest with
  | nil =>
    intro above name d w hnames hw hreaches
    refine open_file_meets hruns htrusting hquiet hw habsolute (fun w' hw' => .inr ?_)
    refine ⟨above, name, d, hnames, hquiet.directory w w' above name d ?_ hw' hreaches⟩
    rw [hnames]
  | cons next rest ih =>
    intro above name d w hnames hw hreaches
    have hprefix : above ++ [name] <+: path.names := ⟨next :: rest, by rw [hnames]; simp⟩
    have hsplit : path.names = (above ++ [name]) ++ next :: rest := by rw [hnames]; simp
    have hlist : (next :: rest).inits.dropLast.map (fun names => above ++ name :: names) =
        (above ++ [name]) :: rest.inits.dropLast.map (fun names => (above ++ [name]) ++ next :: names) := by
      rw [inits_dropLast_cons, List.map_cons, List.map_map]
      refine congrArg (List.cons _) (List.map_congr_left fun names _ => ?_)
      exact (List.append_assoc above [name] (next :: names)).symm
    rw [hlist]
    refine check_parent_meets hruns hw hsplit (fun w' hw' => .inr ?_) ?_
    · exact ⟨above, name, d, rfl, hquiet.directory w w' above name d hprefix hw' hreaches⟩
    · exact fun w' b hw' hb => ih (above ++ [name]) next b w' hsplit (hruns.preordered.trans hw hw') hb

/-- The read is as good as one at one moment. -/
theorem secure_file_meets (w₀ : σ) :
    Meets exec R G (AtOnce R fs c check path w₀) (secure_file check path) w₀ := by
  have hrefl := hruns.preordered.refl w₀
  rw [secure_file]
  split
  · rename_i habsolute
    rcases hnames : path.names with - | ⟨name, rest⟩
    · have hparents : path.parents = [] := by rw [Path.parents, hnames]; rfl
      rw [hparents, ← hnames]
      exact open_file_meets hruns htrusting hquiet hrefl habsolute (fun w' _ => .inl hnames)
    · have hparents : path.parents = [] :: rest.inits.dropLast.map (fun names => [] ++ name :: names) := by
        rw [Path.parents, hnames, inits_dropLast_cons]
        rfl
      rw [hparents, ← hnames]
      refine check_parent_meets hruns hrefl hnames (fun w' _ => .inl rfl) ?_
      exact fun w' b hw' hb => check_parents_meets hruns htrusting hquiet habsolute rest [] name b w'
        hnames hw' hb
  · rename_i habsolute
    intro w hw
    refine ⟨w, hw, hruns.preordered.refl w, fun d => iff_of_false (fun h => (by cases h)) ?_⟩
    exact fun h => habsolute h.1

end Meets

/-! ## Beside processes of other users

Here the others are any processes of any users but root, and nothing is asked of them. What they
cannot do is shown in `FileSystem`. -/

/-- The three readers; the helper's is called with its default owner. -/
inductive Reader
  | secure_read
  | secure_read_root_file (maximum : ℕ)
  | load_config (env : LoadEnv)

namespace Reader

abbrev Raised : Reader → Type
  | secure_read => Whitelist.Raised
  | secure_read_root_file _ => Failed
  | load_config _ => LoadFailed

abbrev Result : Reader → Type
  | secure_read => Text
  | secure_read_root_file _ => Text
  | load_config _ => ReceiverConfig.Config

def check : (reader : Reader) → Check Text Char reader.Raised reader.Result
  | secure_read => TrustedFiles.secure_read 0
  | secure_read_root_file maximum => _secure_read_root_file maximum
  | load_config env => TrustedFiles.load_config env

theorem check_trusting (reader : Reader) : reader.check.Trusting := by
  cases reader with
  | secure_read => exact secure_read_trusting 0
  | secure_read_root_file maximum => exact secure_read_root_file_trusting maximum
  | load_config env => exact load_config_trusting env

theorem check_owner (reader : Reader) : reader.check.owner = 0 := by cases reader <;> rfl

end Reader

/-- A reader with the credentials it runs with and its path. -/
structure Task where
  reader : Reader
  cred : Cred
  path : Path Text

/-- No other user has a trusted file of a task open for writing. -/
def Unheld {τ : Type} (tasks : τ → Task) (fs : FS Text Char) : Prop :=
  ∀ t i n, Way 0 (tasks t).cred fs root (tasks t).path.names i → fs.inodes i = some n → n.Owned 0 →
    n.content.kind = .regular → fs.held i = false

section Readers

variable {τ : Type} [DecidableEq τ] (tasks : τ → Task)

/-- The tasks and the processes of other users. -/
abbrev ReaderStep := @RelyGuarantee.Step τ (FS Text Char) (Call Text Char) _ Answer
  (fun t => Except (tasks t).reader.Raised (tasks t).reader.Result)
  (fun t call fs => Effect (tasks t).cred fs call) (Act 0)
  (fun t p => p = secure_file (tasks t).reader.check (tasks t).path)

/-- What a task sees of the others. -/
def Outside (fs fs' : FS Text Char) : Prop := fs = fs' ∨ Unheld tasks fs ∧ Acts 0 fs fs'

variable {tasks} {fs fs' : FS Text Char}

omit [DecidableEq τ] in
theorem Unheld.act (hunheld : Unheld tasks fs) (h : Act 0 fs fs') : Unheld tasks fs' := by
  intro t i n' hway hn' howned hkind
  have hacts : Acts 0 fs fs' := Relation.ReflTransGen.single h
  obtain ⟨n, hn, hnowned, hnkind⟩ := h.owned_back hn' howned
  have hregular := hnkind.trans hkind
  have hfree := hunheld t i n (hacts.way_iff.mpr hway) hn hnowned hregular
  exact (h.sealed ⟨hnowned, hn, fun _ => hfree⟩).not_held hregular

omit [DecidableEq τ] in
theorem outside_preordered : Preordered (Outside tasks) := by
  refine ⟨fun fs => .inl rfl, ?_⟩
  rintro fs₁ fs₂ fs₃ (rfl | ⟨hunheld, h₁⟩) (rfl | ⟨hunheld', h₂⟩)
  · exact .inl rfl
  · exact .inr ⟨hunheld', h₂⟩
  · exact .inr ⟨hunheld, h₁⟩
  · exact .inr ⟨hunheld, h₁.trans h₂⟩

omit [DecidableEq τ] in
/-- What a task reads of is the same throughout. -/
theorem outside_file {t : τ} {i : ℕ} {n : Inode Text Char} (h : Outside tasks fs fs')
    (hway : Way 0 (tasks t).cred fs root (tasks t).path.names i) (howned : n.Owned 0)
    (hkind : n.content.kind = .regular) : fs.inodes i = some n ↔ fs'.inodes i = some n := by
  rcases h with rfl | ⟨hunheld, hacts⟩
  · exact Iff.rfl
  · constructor
    · exact fun hn => (hacts.inode_iff howned (fun _ => hunheld t i n hway hn howned hkind)).mp hn
    · intro hn'
      obtain ⟨m, hm, hmowned, hmkind⟩ := hacts.owned_back hn' howned
      have hfree := hunheld t i m hway hm hmowned (hmkind.trans hkind)
      exact (hacts.inode_iff howned (fun _ => hfree)).mpr hn'

omit [DecidableEq τ] in
theorem outside_undisturbed (t : τ) : Undisturbed (Outside tasks) id (tasks t).reader.check.owner
    (tasks t).cred (tasks t).path.names := by
  rw [Reader.check_owner]
  constructor
  · rintro fs fs' above name d - (rfl | ⟨-, hacts⟩) hreaches
    · exact hreaches
    · obtain ⟨hway, n, hn, htrusted⟩ := hreaches
      refine ⟨hacts.way_iff.mp hway, n, ?_, htrusted⟩
      refine (hacts.inode_iff htrusted.toOwned (fun hkind => ?_)).mp hn
      rw [htrusted.directory] at hkind
      cases hkind
  · exact fun fs fs' i n h hway howned hkind => outside_file h hway howned hkind

omit [DecidableEq τ] in
theorem reads_iff (t : τ) (h : Outside tasks fs fs') (d : (tasks t).reader.Result) :
    Reads (tasks t).reader.check (tasks t).cred fs (tasks t).path d ↔
      Reads (tasks t).reader.check (tasks t).cred fs' (tasks t).path d := by
  have hway : ∀ i, Way 0 (tasks t).cred fs root (tasks t).path.names i ↔
      Way 0 (tasks t).cred fs' root (tasks t).path.names i := by
    intro i
    rcases h with rfl | ⟨-, hacts⟩
    · exact Iff.rfl
    · exact hacts.way_iff
  have htrusting := (tasks t).reader.check_trusting
  rw [Reads, Reads, Reader.check_owner]
  refine and_congr_right (fun _ => exists_congr fun i => exists_congr fun n => exists_congr fun contents => ?_)
  rw [hway i]
  constructor
  · rintro ⟨hi, hn, hcontents, hgrants, hfile, hdata⟩
    obtain ⟨hkind, huid, hmode⟩ := htrusting _ hfile
    rw [Reader.check_owner] at huid
    exact ⟨hi, (outside_file h ((hway i).mpr hi) ⟨huid, hmode⟩ hkind).mp hn, hcontents, hgrants, hfile,
      hdata⟩
  · rintro ⟨hi, hn, hcontents, hgrants, hfile, hdata⟩
    obtain ⟨hkind, huid, hmode⟩ := htrusting _ hfile
    rw [Reader.check_owner] at huid
    exact ⟨hi, (outside_file h ((hway i).mpr hi) ⟨huid, hmode⟩ hkind).mpr hn, hcontents, hgrants, hfile,
      hdata⟩

theorem effect_reading {ν β : Type} [DecidableEq ν] {c : Cred} {fs fs' : FS ν β} {call : Call ν β}
    {x : Answer call} (hreading : IsReading call) (h : Effect c fs call x fs') : fs' = fs := by
  cases h with
  | lstat => rfl
  | open_nofollow => rfl
  | fstat => rfl
  | read => rfl
  | _ => exact absurd hreading id

omit [DecidableEq τ] in
theorem reader_runs (t : τ) : Runs (fun call fs => Effect (tasks t).cred fs call) id (tasks t).cred
    (Outside tasks) Eq := by
  refine ⟨outside_preordered, fun _ => rfl, fun {call w x w'} hreading h => ?_⟩
  obtain rfl := effect_reading hreading h
  exact ⟨rfl, h⟩

omit [DecidableEq τ] in
theorem task_meets (t : τ) (fs : FS Text Char) :
    Meets (fun call fs => Effect (tasks t).cred fs call) (Outside tasks) Eq
      (AtOnce (Outside tasks) id (tasks t).cred (tasks t).reader.check (tasks t).path fs)
      (secure_file (tasks t).reader.check (tasks t).path) fs :=
  secure_file_meets (reader_runs t) (tasks t).reader.check_trusting (outside_undisturbed t) fs

omit [DecidableEq τ] in
theorem readers_compatible : @Compatible τ (FS Text Char) (Call Text Char) Answer
    (fun t => Except (tasks t).reader.Raised (tasks t).reader.Result)
    (fun t call fs => Effect (tasks t).cred fs call) (Act 0)
    (fun t p => p = secure_file (tasks t).reader.check (tasks t).path)
    (fun _ => Outside tasks) (fun _ => Eq) (Unheld tasks) where
  preordered _ := outside_preordered
  outside _ _ _ hunheld h := .inr ⟨hunheld, Relation.ReflTransGen.single h⟩
  others _ _ _ _ _ _ h := .inl h
  inv_outside _ _ hunheld h := hunheld.act h
  inv_own _ _ _ hunheld h := h ▸ hunheld
  started t _ fs _ hp := hp ▸ (task_meets t fs).mono (fun _ _ _ => trivial)

/-- **A trusted read is atomic.** Let any number of tasks read trusted files, each as often as it likes
and killed when it may be, while processes of other users do to the file system what they can between
any two system calls. At the start no other user has a trusted file of a task open for writing
(`Unheld`), since an open descriptor outlives every change of owner and mode. A read that comes to an
end returns what its path named when it started, and it returns nothing exactly when nothing could be
read then. -/
theorem secure_file_atomic {labels labels' : List (RelyGuarantee.Label τ)}
    {s₀ s s' : RelyGuarantee.State τ (FS Text Char) (Call Text Char) Answer
      (fun t => Except (tasks t).reader.Raised (tasks t).reader.Result)}
    (hidle : ∀ t, ∃ r, s₀.progs t = .done r) (hunheld : Unheld tasks s₀.world)
    (h : Run (ReaderStep tasks) s₀ labels s) (t : τ) (hstart : ReaderStep tasks s (.start t) s')
    {s'' : RelyGuarantee.State τ (FS Text Char) (Call Text Char) Answer
      (fun t => Except (tasks t).reader.Raised (tasks t).reader.Result)}
    (h' : Run (ReaderStep tasks) s' labels' s'') (honce : .start t ∉ labels')
    {r : Except (tasks t).reader.Raised (tasks t).reader.Result} (hdone : s''.progs t = .done r)
    (d : (tasks t).reader.Result) :
    r = .ok d ↔ Reads (tasks t).reader.check (tasks t).cred s.world (tasks t).path d := by
  have hsafe₀ : Safe (fun t call fs => Effect (tasks t).cred fs call) (fun _ => Outside tasks)
      (fun _ => Eq) (Unheld tasks) s₀ := by
    refine ⟨hunheld, fun t => ?_⟩
    obtain ⟨r, hr⟩ := hidle t
    rw [hr]
    exact fun _ _ => trivial
  have hsafe := safe_run readers_compatible hsafe₀ h
  cases hstart with
  | start hallowed =>
    subst hallowed
    obtain ⟨fs, hfs, -, hreads⟩ := result_of_run readers_compatible hsafe rfl
      (task_meets t s.world) h' honce hdone
    exact (hreads d).trans (reads_iff t hfs d).symm

end Readers

/-! ## A whitelist that is read while someone works in `/tmp`

The other user makes a link to the file in a directory that is open to everyone, between two calls
of the reader. -/

def sample_whitelist : Text := "192.0.2.0/30\n".toList

def sample_file : Inode Text Char := ⟨0, 0, 0o644, .regular sample_whitelist⟩

/-- `/whitelist.txt`, and `/tmp` where everyone may write. -/
def sample_fs : FS Text Char where
  inodes i :=
    if i = root then some ⟨0, 0, 0o755, .directory (fun name =>
      if name = "whitelist.txt".toList then some 3 else if name = "tmp".toList then some 4 else none)⟩
    else if i = 3 then some sample_file
    else if i = 4 then some ⟨0, 0, 0o1777, .directory (fun _ => none)⟩
    else none
  held _ := false

def sample_task (_ : Unit) : Task :=
  ⟨.secure_read_root_file 20, ⟨812, [812]⟩, ⟨true, ["whitelist.txt".toList]⟩⟩

/-- Someone makes a link to the file that is read. -/
def sample_linked : FS Text Char :=
  sample_fs.put 4 ⟨0, 0, 0o1777, .directory (fun name => if name = "x".toList then some 3 else none)⟩

abbrev SampleState := RelyGuarantee.State Unit (FS Text Char) (Call Text Char) Answer
  (fun t => Except (sample_task t).reader.Raised (sample_task t).reader.Result)

theorem sample_call {fs fs' : FS Text Char} {call : Call Text Char} {x : Answer call}
    {next : Answer call → Prog (Call Text Char) Answer (Except Failed Text)}
    {p q : Prog (Call Text Char) Answer (Except Failed Text)} (hp : p = .call call next)
    (h : Effect ⟨812, [812]⟩ fs call x fs') (hq : next x = q) :
    ReaderStep sample_task (⟨fs, fun _ => p⟩ : SampleState) (.call ()) ⟨fs', fun _ => q⟩ := by
  have hstep := @RelyGuarantee.Step.call Unit (FS Text Char) (Call Text Char) _ Answer
    (fun t => Except (sample_task t).reader.Raised (sample_task t).reader.Result)
    (fun t call fs => Effect (sample_task t).cred fs call) (Act 0)
    (fun t p => p = secure_file (sample_task t).reader.check (sample_task t).path)
    ⟨fs, fun _ => p⟩ () call next x fs' hp h
  have hgoto : State.goto (⟨fs, fun _ => p⟩ : SampleState) () (next x) fs' = ⟨fs', fun _ => q⟩ :=
    congrArg (State.mk fs') (funext fun _ => (Function.update_self _ _ _).trans hq)
  rw [hgoto] at hstep
  exact hstep

abbrev sample_check : Check Text Char Failed Text := _secure_read_root_file 20

abbrev sample_path : Path Text := ⟨true, ["whitelist.txt".toList]⟩

theorem sample_read : Run (ReaderStep sample_task)
    (⟨sample_fs, fun _ => secure_file sample_check sample_path⟩ : SampleState)
    [.call (), .env, .call (), .call (), .call (), .call ()]
    ⟨sample_linked, fun _ => .done (.ok sample_whitelist)⟩ := by
  have hact : Act 0 sample_fs sample_linked := by
    refine @Act.edit Text Char 0 sample_fs ⟨1000, []⟩ 4 ⟨0, 0, 0o1777, .directory (fun _ => none)⟩ _
      (by decide) (by decide) rfl (by decide)
  have hlstat : sample_fs.lstat ⟨812, [812]⟩ [] = .ok ⟨.directory, 0, 0, 0o755, 0⟩ := rfl
  have hopen : sample_linked.open_nofollow ⟨812, [812]⟩ ["whitelist.txt".toList] = .ok 3 := by
    decide +kernel
  have hcontents : sample_linked.inodes 3 = some sample_file := by rfl
  have hfstat : sample_linked.fstat 3 = .ok sample_file.stat := rfl
  have hread : Effect ⟨812, [812]⟩ sample_linked (.read 3 0 21) (.ok sample_whitelist) sample_linked :=
    Effect.read (Reading.data hcontents rfl (by decide) (by decide))
  have hend : Effect ⟨812, [812]⟩ sample_linked (.read 3 13 8) (.ok []) sample_linked :=
    Effect.read (Reading.data hcontents rfl (by decide) (by decide))
  have hcheck := @sample_call _ _ _ _ _ (secure_file sample_check sample_path)
    (open_file sample_check sample_path.names) rfl (Effect.lstat []) (by rw [hlstat]; rfl)
  have hopened := @sample_call _ _ _ _ _ (open_file sample_check sample_path.names)
    (read_opened sample_check 3) rfl (Effect.open_nofollow _) (by rw [hopen])
  have hstat := @sample_call _ _ _ _ _ (read_opened sample_check 3) (read_stream sample_check 3 21 [])
    rfl (Effect.fstat 3) (by rw [hfstat]; rfl)
  have hfirst := @sample_call _ _ _ _ _ (read_stream sample_check 3 21 [])
    (read_stream sample_check 3 20 sample_whitelist) rfl hread rfl
  have hlast := @sample_call _ _ _ _ _ (read_stream sample_check 3 20 sample_whitelist)
    (.done (.ok sample_whitelist)) rfl hend rfl
  exact Run.cons hcheck (Run.cons (RelyGuarantee.Step.env hact) (Run.cons hopened (Run.cons hstat
    (Run.cons hfirst (Run.single hlast)))))

theorem secure_file_atomic_sample :
    Reads sample_check ⟨812, [812]⟩ sample_fs sample_path sample_whitelist := by
  have hstart := @RelyGuarantee.Step.start Unit (FS Text Char) (Call Text Char) _ Answer
    (fun t => Except (sample_task t).reader.Raised (sample_task t).reader.Result)
    (fun t call fs => Effect (sample_task t).cred fs call) (Act 0)
    (fun t p => p = secure_file (sample_task t).reader.check (sample_task t).path)
    ⟨sample_fs, fun _ => .done (.error .other)⟩ () _ rfl
  have hgoto : State.goto (⟨sample_fs, fun _ => .done (.error .other)⟩ : SampleState) ()
      (secure_file sample_check sample_path) sample_fs =
        ⟨sample_fs, fun _ => secure_file sample_check sample_path⟩ :=
    congrArg (State.mk sample_fs) (funext fun _ => Function.update_self _ _ _)
  have hread := sample_read
  rw [← hgoto] at hread
  have hunheld : Unheld sample_task sample_fs := fun _ _ _ _ _ _ _ => rfl
  exact (secure_file_atomic (fun _ => ⟨_, rfl⟩) hunheld Run.nil () hstart hread (by simp) rfl
    sample_whitelist).mp rfl

end F2bguard.TrustedFiles
