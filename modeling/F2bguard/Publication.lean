/-
The files the package publishes, and those who read them meanwhile.

`f2bguard_atomic_write` (`f2bguard.inc`) writes a new file beside the old one and renames it into
place. PHP processes do so at the same time, for the same files and others; any of them may be
killed, any call that changes something may fail, a write may be cut short, and processes of other
users do what they can. The server and the helper read the files meanwhile.

Such a read gets one of the versions that were renamed into place, in full, and one that was current
between its start and its end (`published_read`). A call that returned `true` has put its contents in
place (`published_write`).

Both are about directories that are there and trusted, and stay so; `MissingDirectory` is about a
call that has to make its directory.
-/
import F2bguard.TrustedFiles
import F2bguard.Service

set_option autoImplicit false

namespace F2bguard.Publication

open F2bguard.PyText F2bguard.Runs F2bguard.FileSystem F2bguard.RelyGuarantee F2bguard.TrustedFiles
open F2bguard.Service (File)

/-! ## The files

The six files of the package with their directories. The temporary file stands beside the file,
with random digits at its end. Two calls may draw the same digits: the file is created
exclusively, and the second call then fails. -/

def directory : File → List Text
  | .server_crt | .server_key | .ca_crt =>
      ["usr".toList, "local".toList, "etc".toList, "f2bguard".toList, "tls".toList]
  | .rc_conf => ["usr".toList, "local".toList, "etc".toList, "rc.conf.d".toList]
  | .whitelist | .config_json => ["usr".toList, "local".toList, "etc".toList, "f2bguard".toList]

def name : File → Text
  | .whitelist => "whitelist.txt".toList
  | .server_crt => "server.crt".toList
  | .server_key => "server.key".toList
  | .ca_crt => "ca.crt".toList
  | .config_json => "config.json".toList
  | .rc_conf => "f2bguard".toList

/-- `$path` -/
def names (file : File) : List Text := directory file ++ [name file]

theorem path_text_names (file : File) : path_text (names file) = file.path.toList := by
  cases file <;> decide

/-- `$path . '.new.' . bin2hex(random_bytes(8))`; the 16 digits are `hex`. -/
structure Suffix where
  hex : Text
  length_eq : hex.length = 16

def tmp_name (file : File) (suffix : Suffix) : Text := name file ++ ".new.".toList ++ suffix.hex

def tmp (file : File) (suffix : Suffix) : List Text := directory file ++ [tmp_name file suffix]

theorem name_injective {file file' : File} (h : name file = name file') : file = file' := by
  revert h
  cases file <;> cases file' <;> decide

theorem tmp_name_ne (file file' : File) (suffix : Suffix) : tmp_name file suffix ≠ name file' := by
  intro h
  have hlength := congrArg List.length h
  have hshort : (name file').length ≤ 13 := by cases file' <;> decide
  rw [tmp_name, List.length_append, suffix.length_eq] at hlength
  omega

/-! ## `f2bguard_atomic_write`

The function as a program of system calls, in the order of the source. Every exit between the
creation of the temporary file and its rename tries to remove it, and the calls in
`set_attributes` stop at the first that fails. -/

abbrev Script (α : Type) := Prog (Call Text Char) Answer α

/-- `chmod(…) && chown(…, 'root') && chgrp(…, $group)` -/
def set_attributes {α : Type} (path : List Text) (mode gid : ℕ) (next : Bool → Script α) : Script α :=
  .call (.change (.chmod path mode)) fun
    | false => next false
    | true => .call (.change (.chown path 0)) fun
      | false => next false
      | true => .call (.change (.chgrp path gid)) next

/-- `mkdir($directory, 0750, true)`: what is missing is made, from the root on. -/
def mkdir_all {α : Type} (next : Bool → Script α) : List (List Text) → Script α
  | [] => next true
  | path :: paths => .call (.is_dir path) fun
    | true => mkdir_all next paths
    | false => .call (.change (.mkdir path 0o750)) fun
      | false => next false
      | true => mkdir_all next paths

/-- The loop over the directory and those above it. -/
def check_directories (next : Script Bool) : List (List Text) → Script Bool
  | [] => next
  | parent :: parents => .call (.lstat parent) fun
    | .error _ => .done false
    | .ok info => if safe_directory 0 info then check_directories next parents else .done false

/-- `@unlink($tmp)` and `return false` -/
def give_up (tmp : List Text) : Script Bool := .call (.change (.unlink tmp)) fun _ => .done false

/-- From the `rename` on. -/
def put_in_place (path tmp : List Text) (mode gid : ℕ) : Script Bool :=
  .call (.change (.rename tmp path)) fun
    | false => give_up tmp
    | true => set_attributes path mode gid .done

/-- The file is created with `umask(0077)`, written and renamed. -/
def write_file (path tmp : List Text) (contents : Text) (mode gid : ℕ) : Script Bool :=
  .call (.create tmp 0o600) fun
    | none => .done false
    | some stream => .call (.write stream contents) fun written =>
      .call (.change (.fsync stream)) fun flushed =>
        if written ≠ contents.length ∨ flushed = false then give_up tmp
        else set_attributes tmp mode gid fun
          | false => give_up tmp
          | true => put_in_place path tmp mode gid

/-- `f2bguard_atomic_write` -/
def atomic_write (gids : String → ℕ) (file : File) (contents : Text) (suffix : Suffix) : Script Bool :=
  let next := check_directories
    (write_file (names file) (tmp file suffix) contents file.mode (gids file.group))
    (directory file).inits.reverse
  .call (.is_dir (directory file)) fun
    | true => next
    | false => mkdir_all (fun
      | false => .done false
      | true => set_attributes (directory file) 0o750 (gids file.group) fun
        | false => .done false
        | true => next) (directory file).inits

/-! ## The world

Beside the file system there are two notes about it that no program reads: what was renamed to
each of the six paths, and which process is preparing which inode. They let the statements speak
of versions. -/

/-- `root` -/
def superuser : Cred := ⟨0, []⟩

/-- The file system, and what happened to it: the versions of each file that were renamed into place,
with their inodes, and who is preparing which inode. -/
structure World (τ : Type) where
  fs : FS Text Char
  log : File → List (ℕ × Text)
  maker : ℕ → Option τ

section World

variable {τ : Type}

def files : List File := [.whitelist, .server_crt, .server_key, .ca_crt, .config_json, .rc_conf]

/-- What a rename puts in place. -/
def published (fs : FS Text Char) (source target : List Text) : Option (File × ℕ × Text) :=
  (files.find? (fun file => names file = target)).bind fun file =>
    match fs.resolve superuser true source with
    | .error _ => none
    | .ok i => match (fs.inodes i).map Inode.content with
      | some (.regular contents) => some (file, i, contents)
      | _ => none

/-- What is noted of a call that made the file system `fs`. -/
def World.note (w : World τ) (t : τ) (fs : FS Text Char) :
    (call : Call Text Char) → Answer call → World τ
  | .create _ _, some i => ⟨fs, w.log, Function.update w.maker i (some t)⟩
  | .change (.rename source target), true =>
    match published w.fs source target with
    | some (file, i, contents) =>
        ⟨fs, Function.update w.log file (w.log file ++ [(i, contents)]), Function.update w.maker i none⟩
    | none => { w with fs }
  | _, _ => { w with fs }

/-- The calls of a PHP process. -/
def Publish (t : τ) (call : Call Text Char) (w : World τ) (x : Answer call) (w' : World τ) : Prop :=
  Effect superuser w.fs call x w'.fs ∧ w' = w.note t w'.fs call x

theorem published_names (fs : FS Text Char) {source : List Text} (file : File) {i : ℕ}
    {n : Inode Text Char} {contents : Text} (hi : fs.resolve superuser true source = .ok i)
    (hn : fs.inodes i = some n) (hcontents : n.content = .regular contents) :
    published fs source (names file) = some (file, i, contents) := by
  have hfind : files.find? (fun f => names f = names file) = some file := by cases file <;> decide
  rw [published, hfind, Option.bind_some, hi]
  dsimp only
  rw [hn, Option.map_some, hcontents]

/-! ## The invariant

A file is the last entry of its log, and an inode in the log is written by nobody any more. An
inode that is being prepared belongs to one process and is no version of any file yet. -/

/-- The name stands for the inode in the directory. -/
def Named (fs : FS Text Char) (dir : ℕ) (nm : Text) (i : ℕ) : Prop :=
  ∃ n entries, fs.inodes dir = some n ∧ n.content = .directory entries ∧ entries nm = some i

/-- A host: the ids of its groups, the inodes of its directories, and what the calls are given. -/
structure Site where
  gids : String → ℕ
  dirs : File → ℕ
  offered : File → Text → Prop

/-- A version of the file. -/
abbrev Site.inode (site : Site) (file : File) (contents : Text) : Inode Text Char :=
  ⟨0, site.gids file.group, file.mode, .regular contents⟩

variable (site : Site)

/-- The directories are trusted, each file is the last of its versions, each version is what a call was
given and does not change, and no one but its maker touches a file that is being prepared. -/
structure Inv (w : World τ) : Prop where
  reaches : ∀ file, Reaches 0 superuser w.fs (directory file) (site.dirs file)
  current : ∀ file n entries, w.fs.inodes (site.dirs file) = some n → n.content = .directory entries →
    entries (name file) = (w.log file).getLast?.map Prod.fst
  versions : ∀ file i contents, (i, contents) ∈ w.log file →
    w.fs.inodes i = some (site.inode file contents) ∧ w.fs.held i = false ∧ w.maker i = none
  offered : ∀ file i contents, (i, contents) ∈ w.log file → site.offered file contents
  drafts : ∀ i t, w.maker i = some t → ∃ n contents, w.fs.inodes i = some n ∧ n.Owned 0 ∧
    n.content = .regular contents ∧ w.fs.held i = false

/-- What the others do, for the process `t`. -/
structure Others (t : τ) (w w' : World τ) : Prop where
  log : ∀ file, w.log file <+: w'.log file
  draft : ∀ i, w.maker i = some t → w'.maker i = some t ∧ w'.fs.inodes i = w.fs.inodes i
  named : ∀ file nm i, w.maker i = some t → Named w.fs (site.dirs file) nm i →
    Named w'.fs (site.dirs file) nm i
  frame : Frame 0 w.fs w'.fs

variable {site} {w w' : World τ} {t : τ}

theorem named_unique {fs : FS Text Char} {dir i j : ℕ} {nm : Text} (h : Named fs dir nm i)
    (h' : Named fs dir nm j) : i = j := by
  obtain ⟨n, entries, hn, hentries, hi⟩ := h
  obtain ⟨n', entries', hn', hentries', hj⟩ := h'
  rw [hn] at hn'
  cases hn'
  rw [hentries] at hentries'
  cases hentries'
  exact Option.some.inj (hi.symm.trans hj)

/-- What a step of a PHP process touches: one inode `i`, that is new or that it made, and names in
one directory that stood for nothing or for files. -/
structure Touches (site : Site) (t : τ) (w w' : World τ) (file : File) (i : ℕ)
    (entries entries' : Text → Option ℕ) : Prop where
  before : ∃ n, w.fs.inodes (site.dirs file) = some n ∧ n.content = .directory entries ∧
    w'.fs.inodes (site.dirs file) = some { n with content := .directory entries' }
  inode : w.fs.inodes i = none ∨ w.maker i = some t
  inodes : ∀ j, j ≠ i → j ≠ site.dirs file → w'.fs.inodes j = w.fs.inodes j
  held : ∀ j, j ≠ i → w'.fs.held j = w.fs.held j
  maker : ∀ j, j ≠ i → w'.maker j = w.maker j
  names : ∀ nm, entries' nm ≠ entries nm →
    entries nm = none ∨ entries nm = some i ∨
      ∃ file', site.dirs file' = site.dirs file ∧ nm = name file'

/-- What it leaves. -/
structure Leaves (site : Site) (t : τ) (w w' : World τ) (file : File) (i : ℕ)
    (entries' : Text → Option ℕ) : Prop where
  log : ∀ file', w.log file' <+: w'.log file'
  elsewhere : ∀ file', site.dirs file' ≠ site.dirs file → w'.log file' = w.log file'
  current : ∀ file', site.dirs file' = site.dirs file →
    entries' (name file') = (w'.log file').getLast?.map Prod.fst
  versions : ∀ file' j contents, (j, contents) ∈ w'.log file' → (j, contents) ∉ w.log file' →
    j = i ∧ w'.fs.inodes i = some (site.inode file' contents) ∧ w'.maker i = none ∧
      site.offered file' contents
  draft : ∃ n contents, w'.fs.inodes i = some n ∧ n.Owned 0 ∧ n.content = .regular contents ∧
    w'.fs.held i = false
  maker : w'.maker i = none ∨ w'.maker i = some t

theorem Inv.not_dir (hinv : Inv site w) {i : ℕ}
    (hi : w.fs.inodes i = none ∨ w.maker i = some t) (file : File) : i ≠ site.dirs file := by
  rintro rfl
  obtain ⟨-, m, hm, htrusted⟩ := hinv.reaches file
  rcases hi with hnone | hmaker
  · rw [hm] at hnone
    cases hnone
  · obtain ⟨n, contents, hn, -, hcontents, -⟩ := hinv.drafts _ _ hmaker
    rw [hm] at hn
    cases hn
    have hkind := htrusted.directory
    rw [hcontents] at hkind
    cases hkind

/-- What a file's name stands for is a version of it. -/
theorem Inv.of_name (hinv : Inv site w) {file : File} {i : ℕ}
    (h : Named w.fs (site.dirs file) (name file) i) :
    ∃ contents, (w.log file).getLast? = some (i, contents) ∧
      w.fs.inodes i = some (site.inode file contents) ∧ w.fs.held i = false ∧ w.maker i = none := by
  obtain ⟨n, entries, hn, hentries, hi⟩ := h
  have hcurrent := hinv.current file n entries hn hentries
  rw [hi] at hcurrent
  obtain ⟨⟨j, contents⟩, hlast, hj⟩ := Option.map_eq_some_iff.mp hcurrent.symm
  cases hj
  exact ⟨contents, hlast, hinv.versions file j contents (List.mem_of_getLast? hlast)⟩

section Step

variable {file : File} {i : ℕ} {entries entries' : Text → Option ℕ} (hinv : Inv site w)
  (h : Touches site t w w' file i entries entries')

include hinv h

/-- A name that changes stood for nothing, or for a file. -/
theorem touched_regular {nm : Text} (hnm : entries' nm ≠ entries nm) {j : ℕ} {m : Inode Text Char}
    (hj : entries nm = some j) (hm : w.fs.inodes j = some m) : m.content.kind = .regular := by
  obtain ⟨n, hn, hentries, -⟩ := h.before
  rcases h.names nm hnm with hnone | hi | ⟨file', hdir, rfl⟩
  · rw [hj] at hnone
    cases hnone
  · rw [hj] at hi
    cases hi
    rcases h.inode with hnone | hmaker
    · rw [hm] at hnone
      cases hnone
    · obtain ⟨m', contents, hm', -, hcontents, -⟩ := hinv.drafts _ _ hmaker
      rw [hm] at hm'
      cases hm'
      rw [hcontents]
      rfl
  · obtain ⟨contents, -, hversion, -, -⟩ := hinv.of_name ⟨n, entries, hdir ▸ hn, hentries, hj⟩
    rw [hm] at hversion
    cases hversion
    rfl

theorem touched_frame : Frame 0 w.fs w'.fs := by
  obtain ⟨n, hn, hentries, hn'⟩ := h.before
  intro j m inner hm hinner howned
  by_cases hdir : j = site.dirs file
  · subst hdir
    rw [hn] at hm
    cases hm
    rw [hentries] at hinner
    cases hinner
    refine ⟨entries', hn', fun nm k m' hk hm' hkind _ => ?_⟩
    by_contra hne
    have hregular := touched_regular hinv h (fun heq => hne (heq.trans hk)) hk hm'
    rw [hkind] at hregular
    cases hregular
  · have hji : j ≠ i := by
      rintro rfl
      rcases h.inode with hnone | hmaker
      · rw [hm] at hnone
        cases hnone
      · obtain ⟨m', contents, hm', -, hcontents, -⟩ := hinv.drafts _ _ hmaker
        rw [hm] at hm'
        cases hm'
        rw [hinner] at hcontents
        cases hcontents
    refine ⟨inner, ?_, fun _ _ _ hname _ _ _ => hname⟩
    rw [h.inodes j hji hdir, hm, ← hinner]

omit hinv in
/-- A draft of another process, and a version of a file, are not touched. -/
theorem touched_other {j : ℕ} {m : Inode Text Char} (hm : w.fs.inodes j = some m)
    (hkind : m.content.kind = .regular) (hmaker : w.maker j ≠ some t) :
    j ≠ i ∧ w'.fs.inodes j = some m ∧ w'.fs.held j = w.fs.held j ∧ w'.maker j = w.maker j := by
  have hji : j ≠ i := by
    rintro rfl
    rcases h.inode with hnone | hown
    · rw [hm] at hnone
      cases hnone
    · exact hmaker hown
  have hdir : j ≠ site.dirs file := by
    rintro rfl
    obtain ⟨n, hn, hentries, -⟩ := h.before
    rw [hm] at hn
    cases hn
    rw [hentries] at hkind
    cases hkind
  exact ⟨hji, (h.inodes j hji hdir).trans hm, h.held j hji, h.maker j hji⟩

theorem touched_inv (hleaves : Leaves site t w w' file i entries') : Inv site w' := by
  have hframe := touched_frame hinv h
  obtain ⟨n, hn, hentries, hn'⟩ := h.before
  constructor
  · intro file'
    obtain ⟨hway, m, hm, htrusted⟩ := hinv.reaches file'
    exact ⟨hframe.way hway hm htrusted, hframe.trusted hm htrusted⟩
  · intro file' m inner hm hinner
    by_cases hdir : site.dirs file' = site.dirs file
    · rw [hdir, hn'] at hm
      cases hm
      cases hinner
      exact hleaves.current file' hdir
    · have hji := hinv.not_dir h.inode file'
      rw [h.inodes _ (fun heq => hji heq.symm) hdir] at hm
      rw [hleaves.elsewhere file' hdir]
      exact hinv.current file' m inner hm hinner
  · intro file' j contents hmem
    by_cases hold : (j, contents) ∈ w.log file'
    · obtain ⟨hj, hheld, hmaker⟩ := hinv.versions file' j contents hold
      obtain ⟨-, hj', hheld', hmaker'⟩ := touched_other h hj rfl (by rw [hmaker]; exact nofun)
      exact ⟨hj', hheld'.trans hheld, hmaker'.trans hmaker⟩
    · obtain ⟨rfl, hj, hmaker, -⟩ := hleaves.versions file' j contents hmem hold
      obtain ⟨m, data, hm, -, -, hheld⟩ := hleaves.draft
      exact ⟨hj, hheld, hmaker⟩
  · intro file' j contents hmem
    by_cases hold : (j, contents) ∈ w.log file'
    · exact hinv.offered file' j contents hold
    · obtain ⟨-, -, -, hoffered⟩ := hleaves.versions file' j contents hmem hold
      exact hoffered
  · intro j t' hmaker
    by_cases hji : j = i
    · subst hji
      exact hleaves.draft
    · rw [h.maker j hji] at hmaker
      obtain ⟨m, contents, hm, howned, hcontents, hheld⟩ := hinv.drafts j t' hmaker
      have hdir := hinv.not_dir (.inr hmaker) file
      exact ⟨m, contents, (h.inodes j hji hdir).trans hm, howned, hcontents, (h.held j hji).trans hheld⟩

theorem touched_others (hleaves : Leaves site t w w' file i entries') {t' : τ} (hne : t' ≠ t) :
    Others site t' w w' := by
  have hdraft : ∀ j, w.maker j = some t' → w'.maker j = some t' ∧ w'.fs.inodes j = w.fs.inodes j := by
    intro j hmaker
    obtain ⟨m, contents, hm, -, hcontents, -⟩ := hinv.drafts j t' hmaker
    have hother : w.maker j ≠ some t := by
      rw [hmaker]
      exact fun heq => hne (Option.some.inj heq)
    obtain ⟨-, hm', -, hmaker'⟩ := touched_other h hm (by rw [hcontents]; rfl) hother
    exact ⟨hmaker'.trans hmaker, hm'.trans hm.symm⟩
  refine ⟨hleaves.log, hdraft, ?_, touched_frame hinv h⟩
  rintro file' nm j hmaker ⟨m, inner, hm, hinner, hj⟩
  by_cases hdir : site.dirs file' = site.dirs file
  · obtain ⟨n, hn, hentries, hn'⟩ := h.before
    rw [hdir, hn] at hm
    cases hm
    rw [hentries] at hinner
    cases hinner
    refine ⟨_, entries', hdir ▸ hn', rfl, ?_⟩
    by_contra hchanged
    -- the name of another's draft is none of those that may change
    rcases h.names nm (fun heq => hchanged (heq.trans hj)) with hnone | hi | ⟨file'', hdir', rfl⟩
    · rw [hj] at hnone
      cases hnone
    · rw [hj] at hi
      cases hi
      rcases h.inode with hnone | hown
      · obtain ⟨m, contents, hm, -⟩ := hinv.drafts _ _ hmaker
        rw [hm] at hnone
        cases hnone
      · rw [hmaker] at hown
        exact hne (Option.some.inj hown)
    · obtain ⟨contents, -, -, -, hnone⟩ := hinv.of_name ⟨_, entries, hdir' ▸ hn, hentries, hj⟩
      rw [hmaker] at hnone
      cases hnone
  · have hji := hinv.not_dir h.inode file'
    exact ⟨m, inner, (h.inodes _ (fun heq => hji heq.symm) hdir).trans hm, hinner, hj⟩

end Step

/-! ## The steps of a PHP process

With the directories there, four kinds of calls change anything: the creation of the temporary
file, a change of its contents or attributes, its removal, and the rename. Each keeps the
invariant and is to the others what they rely on. -/

/-- What a step of a process is to the others. -/
structure Moved (site : Site) (t : τ) (w w' : World τ) : Prop where
  inv : Inv site w'
  log : ∀ file, w.log file <+: w'.log file
  others : ∀ t', t' ≠ t → Others site t' w w'

theorem Moved.refl (hinv : Inv site w) : Moved site t w w :=
  ⟨hinv, fun _ => List.prefix_rfl, fun _ _ => ⟨fun _ => List.prefix_rfl, fun _ h => ⟨h, rfl⟩,
    fun _ _ _ _ h => h, Frame.refl _⟩⟩

theorem moved_of_touches (hinv : Inv site w) {file : File} {i : ℕ} {entries entries' : Text → Option ℕ}
    (h : Touches site t w w' file i entries entries') (hleaves : Leaves site t w w' file i entries') :
    Moved site t w w' :=
  ⟨touched_inv hinv h hleaves, hleaves.log, fun _ hne => touched_others hinv h hleaves hne⟩

/-- The process `t` has made the inode, and the name is that of its temporary file. -/
structure Draft (site : Site) (t : τ) (w : World τ) (file : File) (nm : Text) (i : ℕ)
    (n : Inode Text Char) : Prop where
  maker : w.maker i = some t
  inode : w.fs.inodes i = some n
  named : Named w.fs (site.dirs file) nm i
  owned : n.Owned 0
  regular : ∃ contents, n.content = .regular contents

theorem superuser_grants (n : Inode Text Char) (bit : ℕ) : n.grants superuser bit = true := rfl

theorem entry_superuser {fs : FS Text Char} {dir : ℕ} {nm : Text} {i : ℕ} :
    fs.entry superuser dir nm = .ok i ↔ Named fs dir nm i := by
  rw [entry_eq_ok]
  constructor
  · rintro ⟨n, entries, hn, hentries, -, hi⟩
    exact ⟨n, entries, hn, hentries, hi⟩
  · rintro ⟨n, entries, hn, hentries, hi⟩
    exact ⟨n, entries, hn, hentries, superuser_grants n 0, hi⟩

theorem entries_none {fs : FS Text Char} {dir : ℕ} {nm : Text} {n : Inode Text Char}
    {entries : Text → Option ℕ} (hn : fs.inodes dir = some n)
    (hentries : n.content = .directory entries)
    (h : fs.entry superuser dir nm = .error .ENOENT) : entries nm = none := by
  cases hi : entries nm with
  | none => rfl
  | some i =>
    rw [entry_superuser.mpr ⟨n, entries, hn, hentries, hi⟩] at h
    cases h

theorem link_of_directory {fs : FS Text Char} {dir : ℕ} {nm : Text} {n : Inode Text Char}
    {entries : Text → Option ℕ} (hn : fs.inodes dir = some n)
    (hentries : n.content = .directory entries)
    (i : Option ℕ) : fs.link dir nm i =
      fs.put dir { n with content := .directory (Function.update entries nm i) } := by
  rw [FS.link, hn]
  dsimp only
  rw [hentries]
  rfl

theorem link_spec {fs : FS Text Char} {dir : ℕ} {n : Inode Text Char} {entries : Text → Option ℕ}
    (hn : fs.inodes dir = some n) (hentries : n.content = .directory entries) (nm : Text)
    (i : Option ℕ) :
    (fs.link dir nm i).inodes dir =
        some { n with content := .directory (Function.update entries nm i) } ∧
      (∀ j, j ≠ dir → (fs.link dir nm i).inodes j = fs.inodes j) ∧
      (fs.link dir nm i).held = fs.held := by
  rw [link_of_directory hn hentries]
  exact ⟨(put_inodes ..).trans (if_pos rfl), fun j hj => (put_inodes ..).trans (if_neg hj), rfl⟩

/-- What a new name changes. -/
theorem make_spec {fs : FS Text Char} {dir i : ℕ} {n : Inode Text Char} {entries : Text → Option ℕ}
    (hn : fs.inodes dir = some n) (hentries : n.content = .directory entries) (hdir : dir ≠ i)
    (m : Inode Text Char) (nm : Text) :
    (fs.make i m dir nm).inodes dir =
        some { n with content := .directory (Function.update entries nm (some i)) } ∧
      (fs.make i m dir nm).inodes i = some m ∧
      (∀ j, j ≠ i → j ≠ dir → (fs.make i m dir nm).inodes j = fs.inodes j) ∧
      ∀ j, (fs.make i m dir nm).held j = if j = i then false else fs.held j := by
  have hput : ((fs.put i m).hold i false).inodes dir = some n :=
    ((put_inodes ..).trans (if_neg hdir)).trans hn
  have hmake : fs.make i m dir nm = ((fs.put i m).hold i false).put dir
      { n with content := .directory (Function.update entries nm (some i)) } :=
    link_of_directory hput hentries (some i)
  rw [hmake]
  refine ⟨(put_inodes ..).trans (if_pos rfl), ?_, fun j hji hjd => ?_, fun j => hold_held ..⟩
  · rw [put_inodes, if_neg (fun heq => hdir heq.symm)]
    exact (put_inodes ..).trans (if_pos rfl)
  · rw [put_inodes, if_neg hjd]
    exact (put_inodes ..).trans (if_neg hji)

section Resolve

variable {file : File} (hinv : Inv site w)

include hinv

theorem resolve_named {nm : Text} {i : ℕ} {n : Inode Text Char}
    (hnamed : Named w.fs (site.dirs file) nm i) (hn : w.fs.inodes i = some n)
    (hkind : n.content.kind = .regular) (nofollow : Bool) :
    w.fs.resolve superuser nofollow (directory file ++ [nm]) = .ok i := by
  have hlast : ∀ follow, w.fs.walk superuser nofollow follow (site.dirs file) [nm] = .ok i := by
    intro follow
    rw [FS.walk, entry_superuser.mpr hnamed]
    dsimp only
    rw [hn, Option.map_some]
    cases hcontent : n.content with
    | symlink absolute target =>
      rw [hcontent] at hkind
      cases hkind
    | _ => rfl
  exact ((hinv.reaches file).resolve_append nofollow [nm]).trans (hlast _)

/-- The name of a file leads to a version of it. -/
theorem resolve_name {i : ℕ} (h : w.fs.resolve superuser false (names file) = .ok i) :
    ∃ contents, w.fs.inodes i = some (site.inode file contents) := by
  cases hentry : w.fs.entry superuser (site.dirs file) (name file) with
  | error e =>
    have hlast : ∀ follow,
        w.fs.walk superuser false follow (site.dirs file) [name file] = .error e := by
      intro follow
      rw [FS.walk, hentry]
    rw [names, (hinv.reaches file).resolve_append, MAXSYMLINKS, FS.lookup, hlast] at h
    cases h
  | ok j =>
    have hnamed := entry_superuser.mp hentry
    obtain ⟨contents, -, hj, -, -⟩ := hinv.of_name hnamed
    rw [names, resolve_named hinv hnamed hj rfl false] at h
    cases h
    exact ⟨contents, hj⟩

/-- The name of a file leads to the last version of it. -/
theorem resolve_current {i : ℕ} {contents : Text} (h : (w.log file).getLast? = some (i, contents)) :
    w.fs.resolve superuser false (names file) = .ok i ∧
      w.fs.inodes i = some (site.inode file contents) := by
  obtain ⟨-, m, hm, htrusted⟩ := hinv.reaches file
  obtain ⟨entries, hentries⟩ := m.content.directory_of_kind htrusted.directory
  obtain ⟨hi, -, -⟩ := hinv.versions file i contents (List.mem_of_getLast? h)
  have hname := hinv.current file m entries hm hentries
  rw [h] at hname
  exact ⟨resolve_named hinv ⟨m, entries, hm, hentries, hname⟩ hi rfl false, hi⟩

theorem place_eq {nm nm' : Text} {dir : ℕ}
    (h : w.fs.Place superuser (directory file ++ [nm]) dir nm') : dir = site.dirs file ∧ nm' = nm := by
  obtain ⟨names, hnames, hdir⟩ := h
  obtain ⟨rfl, hlast⟩ := List.append_inj' hnames rfl
  rw [(hinv.reaches file).resolve] at hdir
  exact ⟨(Except.ok.inj hdir).symm, (List.singleton_inj.mp hlast).symm⟩

end Resolve

theorem draft_owned {mode gid : ℕ} (hmode : mode &&& 0o022 = 0) (contents : Text) :
    (⟨0, gid, mode, .regular contents⟩ : Inode Text Char).Owned 0 := ⟨rfl, hmode⟩

/-- The temporary file is created. -/
theorem create_moved (hinv : Inv site w) {file : File} {suffix : Suffix} {mode i : ℕ}
    (hmode : mode &&& 0o022 = 0) (h : Publish t (.create (tmp file suffix) mode) w (some i) w') :
    Moved site t w w' ∧
      ∃ gid, Draft site t w' file (tmp_name file suffix) i ⟨0, gid, mode, .regular []⟩ := by
  obtain ⟨fs', log', maker'⟩ := w'
  obtain ⟨heffect, hnote⟩ := h
  cases hnote
  cases heffect with
  | @create path mode i dir gid nm hplace hnone hfree =>
    obtain ⟨rfl, rfl⟩ := place_eq hinv hplace
    obtain ⟨-, n, hn, htrusted⟩ := hinv.reaches file
    obtain ⟨entries, hentries⟩ := n.content.directory_of_kind htrusted.directory
    have hfresh := entries_none hn hentries hnone
    have hdir : site.dirs file ≠ i := fun heq => hinv.not_dir (t := t) (.inl hfree) file heq.symm
    obtain ⟨hd, hi, hinodes, hheld⟩ := make_spec hn hentries hdir (⟨0, gid, mode, .regular []⟩)
      (tmp_name file suffix)
    have hmaker : ∀ j, j ≠ i → Function.update w.maker i (some t) j = w.maker j :=
      fun j hj => Function.update_of_ne hj _ _
    have hself : Function.update w.maker i (some t) i = some t := Function.update_self _ _ _
    have htouches : Touches site t w ⟨w.fs.make i ⟨0, gid, mode, .regular []⟩ (site.dirs file)
        (tmp_name file suffix), w.log, Function.update w.maker i (some t)⟩ file i entries
        (Function.update entries (tmp_name file suffix) (some i)) := by
      refine ⟨⟨n, hn, hentries, hd⟩, .inl hfree, hinodes, fun j hj => (hheld j).trans (if_neg hj),
        hmaker, fun nm hnm => .inl ?_⟩
      rcases eq_or_ne nm (tmp_name file suffix) with rfl | hne
      · exact hfresh
      · exact absurd (Function.update_of_ne hne _ _) hnm
    have hleaves : Leaves site t w ⟨w.fs.make i ⟨0, gid, mode, .regular []⟩ (site.dirs file)
        (tmp_name file suffix), w.log, Function.update w.maker i (some t)⟩ file i
        (Function.update entries (tmp_name file suffix) (some i)) := by
      refine ⟨fun _ => List.prefix_rfl, fun _ _ => rfl, fun file' hdirs => ?_,
        fun _ _ _ h hn => absurd h hn, ?_, .inr hself⟩
      · rw [Function.update_of_ne (fun heq => tmp_name_ne file file' suffix heq.symm)]
        exact hinv.current file' n entries (hdirs ▸ hn) hentries
      · exact ⟨_, [], hi, draft_owned hmode [], rfl, (hheld i).trans (if_pos rfl)⟩
    refine ⟨moved_of_touches hinv htouches hleaves, gid, hself, hi, ?_, draft_owned hmode [], [], rfl⟩
    exact ⟨_, _, hd, rfl, Function.update_self _ _ _⟩

/-- The temporary file gets other contents or attributes. -/
theorem put_moved (hinv : Inv site w) {file : File} {nm : Text} {i : ℕ} {n n' : Inode Text Char}
    (hdraft : Draft site t w file nm i n) (howned : n'.Owned 0)
    (hregular : ∃ contents, n'.content = .regular contents) :
    Moved site t w { w with fs := w.fs.put i n' } ∧
      Draft site t { w with fs := w.fs.put i n' } file nm i n' := by
  obtain ⟨hmaker, hi, ⟨m, entries, hm, hentries, hnm⟩, -, -⟩ := hdraft
  have hdir := hinv.not_dir (.inr hmaker) file
  obtain ⟨contents, hcontents⟩ := hregular
  obtain ⟨-, -, hfound, -, -, hheld⟩ := hinv.drafts i t hmaker
  have hself : (w.fs.put i n').inodes i = some n' := (put_inodes ..).trans (if_pos rfl)
  have hother : ∀ j, j ≠ i → (w.fs.put i n').inodes j = w.fs.inodes j :=
    fun j hj => (put_inodes ..).trans (if_neg hj)
  have hdir' : (w.fs.put i n').inodes (site.dirs file) =
      some { m with content := .directory entries } := by
    rw [hother _ (fun heq => hdir heq.symm), hm, ← hentries]
  have htouches : Touches site t w { w with fs := w.fs.put i n' } file i entries entries := by
    exact ⟨⟨m, hm, hentries, hdir'⟩, .inr hmaker, fun j hj _ => hother j hj, fun _ _ => rfl,
      fun _ _ => rfl, fun _ h => absurd rfl h⟩
  have hleaves : Leaves site t w { w with fs := w.fs.put i n' } file i entries := by
    refine ⟨fun _ => List.prefix_rfl, fun _ _ => rfl, fun file' hdirs => ?_,
      fun _ _ _ h hn => absurd h hn, ⟨n', contents, hself, howned, hcontents, hheld⟩, .inr hmaker⟩
    exact hinv.current file' m entries (hdirs ▸ hm) hentries
  exact ⟨moved_of_touches hinv htouches hleaves, hmaker, hself, ⟨_, entries, hdir', rfl, hnm⟩, howned,
    contents, hcontents⟩

/-- The temporary file is removed. -/
theorem unlink_moved (hinv : Inv site w) {file : File} {suffix : Suffix} {i : ℕ}
    {n : Inode Text Char} (hdraft : Draft site t w file (tmp_name file suffix) i n)
    (h : Publish t (.change (.unlink (tmp file suffix))) w true w') : Moved site t w w' := by
  obtain ⟨fs', log', maker'⟩ := w'
  obtain ⟨heffect, hnote⟩ := h
  cases hnote
  obtain ⟨j, dir, nm', hplace, -, hfs⟩ := unlink_changes (changes_of_effect heffect)
  replace hfs : fs' = w.fs.link dir nm' none := hfs
  obtain ⟨rfl, rfl⟩ := place_eq hinv hplace
  obtain ⟨hmaker, hi, ⟨m, entries, hm, hentries, hnm⟩, howned, contents, hcontents⟩ := hdraft
  obtain ⟨-, -, hfound, -, -, hheld⟩ := hinv.drafts i t hmaker
  have hdir := hinv.not_dir (.inr hmaker) file
  obtain ⟨hself, hother, hsame⟩ := link_spec hm hentries (tmp_name file suffix) none
  rw [← hfs] at hself hother hsame
  have htouches : Touches site t w ⟨fs', w.log, w.maker⟩ file i entries
      (Function.update entries (tmp_name file suffix) none) := by
    refine ⟨⟨m, hm, hentries, hself⟩, .inr hmaker, fun j _ hj => hother j hj,
      fun j _ => congrFun hsame j, fun _ _ => rfl, fun nm hne => .inr (.inl ?_)⟩
    rcases eq_or_ne nm (tmp_name file suffix) with rfl | hnm'
    · exact hnm
    · exact absurd (Function.update_of_ne hnm' _ _) hne
  have hleaves : Leaves site t w ⟨fs', w.log, w.maker⟩ file i
      (Function.update entries (tmp_name file suffix) none) := by
    refine ⟨fun _ => List.prefix_rfl, fun _ _ => rfl, fun file' hdirs => ?_,
      fun _ _ _ h hn => absurd h hn, ?_, .inr hmaker⟩
    · rw [Function.update_of_ne (fun heq => tmp_name_ne file file' suffix heq.symm)]
      exact hinv.current file' m entries (hdirs ▸ hm) hentries
    · exact ⟨n, contents, (hother i hdir).trans hi, howned, hcontents, (congrFun hsame i).trans hheld⟩
  exact moved_of_touches hinv htouches hleaves

/-- The temporary file is renamed into place. -/
theorem rename_moved (hinv : Inv site w) {file : File} {suffix : Suffix} {i : ℕ} {contents : Text}
    (hoffered : site.offered file contents)
    (hdraft : Draft site t w file (tmp_name file suffix) i (site.inode file contents))
    (h : Publish t (.change (.rename (tmp file suffix) (names file))) w true w') :
    Moved site t w w' ∧ w'.log file = w.log file ++ [(i, contents)] := by
  obtain ⟨fs', log', maker'⟩ := w'
  obtain ⟨heffect, hnote⟩ := h
  obtain ⟨hmaker, hi, hnamed, howned, -⟩ := hdraft
  have hpublished : published w.fs (tmp file suffix) (names file) = some (file, i, contents) :=
    published_names w.fs file (resolve_named hinv hnamed hi rfl true) hi rfl
  rw [World.note, hpublished] at hnote
  cases hnote
  obtain ⟨j, dir, dir', nm, nm', hsource, hj, htarget, hfs⟩ :=
    rename_changes (changes_of_effect heffect)
  replace hfs : fs' = (w.fs.link dir nm none).link dir' nm' (some j) := hfs
  obtain ⟨rfl, rfl⟩ := place_eq hinv hsource
  obtain ⟨rfl, rfl⟩ := place_eq hinv htarget
  obtain rfl := named_unique hnamed (entry_superuser.mp hj)
  obtain ⟨m, entries, hm, hentries, hnm⟩ := hnamed
  obtain ⟨-, -, -, -, -, hheld⟩ := hinv.drafts i t hmaker
  have hdir := hinv.not_dir (.inr hmaker) file
  obtain ⟨hremoved, hother₁, hheld₁⟩ := link_spec hm hentries (tmp_name file suffix) none
  obtain ⟨hself, hother₂, hheld₂⟩ := link_spec hremoved rfl (name file) (some i)
  rw [← hfs] at hself hother₂ hheld₂
  have hother : ∀ j, j ≠ site.dirs file → fs'.inodes j = w.fs.inodes j :=
    fun j hj => (hother₂ j hj).trans (hother₁ j hj)
  have hsame : fs'.held = w.fs.held := hheld₂.trans hheld₁
  have hlog : Function.update w.log file (w.log file ++ [(i, contents)]) file =
      w.log file ++ [(i, contents)] := Function.update_self _ _ _
  have hlogs : ∀ file', file' ≠ file →
      Function.update w.log file (w.log file ++ [(i, contents)]) file' = w.log file' :=
    fun file' hne => Function.update_of_ne hne _ _
  have hnone : Function.update w.maker i none i = none := Function.update_self _ _ _
  have htouches : Touches site t w ⟨fs', Function.update w.log file (w.log file ++ [(i, contents)]),
      Function.update w.maker i none⟩ file i entries
      (Function.update (Function.update entries (tmp_name file suffix) none) (name file) (some i)) := by
    refine ⟨⟨m, hm, hentries, hself⟩, .inr hmaker, fun j _ hj => hother j hj,
      fun j _ => congrFun hsame j, fun j hj => Function.update_of_ne hj _ _, fun nm hne => .inr ?_⟩
    rcases eq_or_ne nm (name file) with rfl | hname
    · exact .inr ⟨file, rfl, rfl⟩
    · rw [Function.update_of_ne hname] at hne
      rcases eq_or_ne nm (tmp_name file suffix) with rfl | htmp
      · exact .inl hnm
      · exact absurd (Function.update_of_ne htmp _ _) hne
  have hleaves : Leaves site t w ⟨fs', Function.update w.log file (w.log file ++ [(i, contents)]),
      Function.update w.maker i none⟩ file i
      (Function.update (Function.update entries (tmp_name file suffix) none) (name file) (some i)) := by
    have hinode := (hother i hdir).trans hi
    refine ⟨fun file' => ?_, fun file' hdirs => hlogs file' (fun heq => hdirs (congrArg site.dirs heq)),
      fun file' hdirs => ?_, fun file' j data hmem hnew => ?_, ?_, .inl hnone⟩
    · dsimp only
      rcases eq_or_ne file' file with rfl | hne
      · rw [hlog]
        exact List.prefix_append _ _
      · rw [hlogs file' hne]
    · dsimp only
      rcases eq_or_ne file' file with rfl | hne
      · rw [Function.update_self, hlog, List.getLast?_concat]
        rfl
      · rw [Function.update_of_ne (fun heq => hne (name_injective heq)),
          Function.update_of_ne (fun heq => tmp_name_ne file file' suffix heq.symm), hlogs file' hne]
        exact hinv.current file' m entries (hdirs ▸ hm) hentries
    · dsimp only at hmem ⊢
      rcases eq_or_ne file' file with rfl | hne
      · rw [hlog, List.mem_append, List.mem_singleton] at hmem
        cases hmem.resolve_left hnew
        exact ⟨rfl, hinode, hnone, hoffered⟩
      · rw [hlogs file' hne] at hmem
        exact absurd hmem hnew
    · exact ⟨_, contents, hinode, howned, rfl, (congrFun hsame i).trans hheld⟩
  exact ⟨moved_of_touches hinv htouches hleaves, hlog⟩

/-! ## What a call of `f2bguard_atomic_write` guarantees

The program from its end to its start: what is left of it after each call meets its triple,
whether that call succeeds or not. The statement about the result needs only the branch on which
everything succeeded. -/

/-- What a process relies on. -/
def Rely (site : Site) (t : τ) (w w' : World τ) : Prop :=
  w = w' ∨ Inv site w ∧ Inv site w' ∧ Others site t w w'

/-- What it guarantees. -/
def Guar (site : Site) (t : τ) (w w' : World τ) : Prop :=
  w = w' ∨ Inv site w ∧ Moved site t w w'

theorem Others.trans {w₁ w₂ w₃ : World τ} (h₁ : Others site t w₁ w₂) (h₂ : Others site t w₂ w₃) :
    Others site t w₁ w₃ where
  log file := (h₁.log file).trans (h₂.log file)
  draft i hmaker := by
    obtain ⟨hmaker', hi⟩ := h₁.draft i hmaker
    obtain ⟨hmaker'', hi'⟩ := h₂.draft i hmaker'
    exact ⟨hmaker'', hi'.trans hi⟩
  named file nm i hmaker h := h₂.named file nm i (h₁.draft i hmaker).1 (h₁.named file nm i hmaker h)
  frame := h₁.frame.trans h₂.frame

theorem rely_preordered : Preordered (Rely site t) := by
  refine ⟨fun w => .inl rfl, ?_⟩
  rintro w₁ w₂ w₃ (rfl | ⟨hinv₁, hinv₂, h₁⟩) (rfl | ⟨hinv₂', hinv₃, h₂⟩)
  · exact .inl rfl
  · exact .inr ⟨hinv₂', hinv₃, h₂⟩
  · exact .inr ⟨hinv₁, hinv₂, h₁⟩
  · exact .inr ⟨hinv₁, hinv₃, h₁.trans h₂⟩

theorem Rely.inv (h : Rely site t w w') (hinv : Inv site w) : Inv site w' := by
  rcases h with rfl | ⟨-, hinv', -⟩
  · exact hinv
  · exact hinv'

theorem Rely.log (h : Rely site t w w') (file : File) : w.log file <+: w'.log file := by
  rcases h with rfl | ⟨-, -, hothers⟩
  · exact List.prefix_rfl
  · exact hothers.log file

theorem Rely.draft (h : Rely site t w w') {file : File} {nm : Text} {i : ℕ} {n : Inode Text Char}
    (hdraft : Draft site t w file nm i n) : Draft site t w' file nm i n := by
  rcases h with rfl | ⟨-, -, hothers⟩
  · exact hdraft
  · obtain ⟨hmaker, hi⟩ := hothers.draft i hdraft.maker
    exact ⟨hmaker, hi.trans hdraft.inode, hothers.named file nm i hdraft.maker hdraft.named,
      hdraft.owned, hdraft.regular⟩

/-- The contents were renamed into place since `w₀`. -/
def InPlace (w₀ : World τ) (file : File) (contents : Text) (w : World τ) : Prop :=
  ∃ log i, w₀.log file <+: log ∧ log ++ [(i, contents)] <+: w.log file

/-- A call that returns `true` has put the contents in place. -/
def Written (w₀ : World τ) (file : File) (contents : Text) (r : Bool) (w : World τ) : Prop :=
  r = true → InPlace w₀ file contents w

abbrev PublishMeets (site : Site) (t : τ) (w₀ : World τ) (file : File)
    (contents : Text) : Script Bool → World τ → Prop :=
  Meets (Publish t) (Rely site t) (Guar site t) (Written w₀ file contents)

variable {w₀ : World τ} {file : File} {contents : Text}

theorem done_false_meets (w : World τ) : PublishMeets site t w₀ file contents (.done false) w :=
  fun _ _ h => nomatch h

/-- A call, with the world it finds. -/
theorem call_meets {call : Call Text Char} {next : Answer call → Script Bool} (hinv : Inv site w)
    (hlog : w₀.log file <+: w.log file)
    (h : ∀ w₁ x w₂, Rely site t w w₁ → Inv site w₁ → w₀.log file <+: w₁.log file →
      Publish t call w₁ x w₂ → Guar site t w₁ w₂ ∧
        PublishMeets site t w₀ file contents (next x) w₂) :
    PublishMeets site t w₀ file contents (.call call next) w :=
  fun w₁ hw₁ x w₂ hcall => h w₁ x w₂ hw₁ (hw₁.inv hinv) (hlog.trans (hw₁.log file)) hcall

/-- A change that is refused leaves the world. -/
theorem publish_refused {change : Change Text} (h : Publish t (.change change) w false w') :
    w' = w := by
  obtain ⟨heffect, hnote⟩ := h
  rw [hnote, same_of_effect heffect]
  cases change <;> rfl

theorem give_up_meets {suffix : Suffix} {i : ℕ} {n : Inode Text Char} (hinv : Inv site w)
    (hlog : w₀.log file <+: w.log file) (hdraft : Draft site t w file (tmp_name file suffix) i n) :
    PublishMeets site t w₀ file contents (give_up (tmp file suffix)) w := by
  refine call_meets hinv hlog (fun w₁ x w₂ hw₁ hinv₁ _ hcall => ⟨?_, done_false_meets w₂⟩)
  cases x with
  | false => exact .inl (publish_refused hcall).symm
  | true => exact .inr ⟨hinv₁, unlink_moved hinv₁ (hw₁.draft hdraft) hcall⟩

theorem publish_changed {change : Change Text}
    (hchange : ∀ source target, change ≠ .rename source target)
    (h : Publish t (.change change) w true w') :
    Changes superuser w.fs change w'.fs ∧ w' = { w with fs := w'.fs } := by
  obtain ⟨heffect, hnote⟩ := h
  refine ⟨changes_of_effect heffect, ?_⟩
  cases change with
  | rename source target => exact absurd rfl (hchange source target)
  | _ => exact hnote

/-- The call sets an attribute of what the path leads to. -/
def Sets (change : Change Text) (path : List Text) (f : Inode Text Char → Inode Text Char) : Prop :=
  (∀ source target, change ≠ .rename source target) ∧
    ∀ (fs fs' : FS Text Char), Changes superuser fs change fs' →
      ∃ i n, fs.resolve superuser false path = .ok i ∧ fs.inodes i = some n ∧ fs' = fs.put i (f n)

theorem sets_chmod (path : List Text) (mode : ℕ) : Sets (.chmod path mode) path ({ · with mode }) :=
  ⟨fun _ _ h => (by cases h), fun _ _ h => chmod_changes h⟩

theorem sets_chown (path : List Text) (uid : ℕ) : Sets (.chown path uid) path ({ · with uid }) :=
  ⟨fun _ _ h => (by cases h), fun _ _ h => chown_changes h⟩

theorem sets_chgrp (path : List Text) (gid : ℕ) : Sets (.chgrp path gid) path ({ · with gid }) :=
  ⟨fun _ _ h => (by cases h), fun _ _ h => chgrp_changes h⟩

/-- An attribute of the temporary file. -/
theorem attribute_meets {nm : Text} {i : ℕ} {n : Inode Text Char} {change : Change Text}
    {f : Inode Text Char → Inode Text Char} {next : Bool → Script Bool}
    (hsets : Sets change (directory file ++ [nm]) f) (howned : (f n).Owned 0)
    (hcontent : (f n).content = n.content) (hinv : Inv site w) (hlog : w₀.log file <+: w.log file)
    (hdraft : Draft site t w file nm i n)
    (hfalse : ∀ w', Inv site w' → w₀.log file <+: w'.log file → Draft site t w' file nm i n →
      PublishMeets site t w₀ file contents (next false) w')
    (htrue : ∀ w', Inv site w' → w₀.log file <+: w'.log file → Draft site t w' file nm i (f n) →
      PublishMeets site t w₀ file contents (next true) w') :
    PublishMeets site t w₀ file contents (.call (.change change) next) w := by
  refine call_meets hinv hlog (fun w₁ x w₂ hw₁ hinv₁ hlog₁ hcall => ?_)
  have hdraft₁ := hw₁.draft hdraft
  cases x with
  | false =>
    obtain rfl := publish_refused hcall
    exact ⟨.inl rfl, hfalse w₂ hinv₁ hlog₁ hdraft₁⟩
  | true =>
    obtain ⟨data, hdata⟩ := hdraft.regular
    obtain ⟨hchange, hw₂⟩ := publish_changed hsets.1 hcall
    obtain ⟨j, m, hj, hm, hfs⟩ := hsets.2 _ _ hchange
    rw [resolve_named hinv₁ hdraft₁.named hdraft₁.inode (by rw [hdata]; rfl)] at hj
    cases hj
    rw [hdraft₁.inode] at hm
    cases hm
    obtain ⟨hmoved, hdraft₂⟩ := put_moved hinv₁ hdraft₁ howned ⟨data, hcontent.trans hdata⟩
    rw [← hfs, ← hw₂] at hmoved hdraft₂
    exact ⟨.inr ⟨hinv₁, hmoved⟩, htrue w₂ hmoved.inv (hlog₁.trans (hmoved.log file)) hdraft₂⟩

theorem set_attributes_meets {nm : Text} {i : ℕ} {n : Inode Text Char} {mode gid : ℕ}
    {next : Bool → Script Bool} (hmode : mode &&& 0o022 = 0) (hinv : Inv site w)
    (hlog : w₀.log file <+: w.log file) (hdraft : Draft site t w file nm i n)
    (hfalse : ∀ w' n', Inv site w' → w₀.log file <+: w'.log file → Draft site t w' file nm i n' →
      PublishMeets site t w₀ file contents (next false) w')
    (htrue : ∀ w', Inv site w' → w₀.log file <+: w'.log file →
      Draft site t w' file nm i ⟨0, gid, mode, n.content⟩ →
      PublishMeets site t w₀ file contents (next true) w') :
    PublishMeets site t w₀ file contents (set_attributes (directory file ++ [nm]) mode gid next) w := by
  refine attribute_meets (sets_chmod _ mode) ⟨hdraft.owned.uid, hmode⟩ rfl hinv hlog hdraft
    (fun w' hinv hlog hdraft => hfalse w' _ hinv hlog hdraft) (fun w₁ hinv₁ hlog₁ hdraft₁ => ?_)
  refine attribute_meets (sets_chown _ 0) ⟨rfl, hmode⟩ rfl hinv₁ hlog₁ hdraft₁
    (fun w' hinv hlog hdraft => hfalse w' _ hinv hlog hdraft) (fun w₂ hinv₂ hlog₂ hdraft₂ => ?_)
  exact attribute_meets (sets_chgrp _ gid) ⟨rfl, hmode⟩ rfl hinv₂ hlog₂ hdraft₂
    (fun w' hinv hlog hdraft => hfalse w' _ hinv hlog hdraft) htrue

/-- The attributes of the file in place are what they were. -/
theorem attribute_in_place_meets {change : Change Text} {f : Inode Text Char → Inode Text Char}
    {next : Bool → Script Bool} (hsets : Sets change (names file) f)
    (hsame : ∀ data, f (site.inode file data) = site.inode file data) (hinv : Inv site w)
    (hplace : InPlace w₀ file contents w)
    (hnext : ∀ x w', Inv site w' → InPlace w₀ file contents w' →
      PublishMeets site t w₀ file contents (next x) w') :
    PublishMeets site t w₀ file contents (.call (.change change) next) w := by
  intro w₁ hw₁ x w₂ hcall
  have hinv₁ := hw₁.inv hinv
  obtain ⟨log, i, hbefore, hafter⟩ := hplace
  have hstay : w₂ = w₁ := by
    cases x with
    | false => exact publish_refused hcall
    | true =>
      obtain ⟨hchange, hw₂⟩ := publish_changed hsets.1 hcall
      obtain ⟨j, n, hj, hn, hfs⟩ := hsets.2 _ _ hchange
      obtain ⟨data, hversion⟩ := resolve_name hinv₁ hj
      rw [hn] at hversion
      cases hversion
      have hput : w₁.fs.put j (site.inode file data) = w₁.fs :=
        congrArg (FS.mk · w₁.fs.held) ((congrArg _ hn.symm).trans (Function.update_eq_self j _))
      rw [hw₂, hfs, hsame, hput]
  subst hstay
  exact ⟨.inl rfl, hnext x w₂ hinv₁ ⟨log, i, hbefore, hafter.trans (hw₁.log file)⟩⟩

theorem done_in_place_meets (hplace : InPlace w₀ file contents w) (r : Bool) :
    PublishMeets site t w₀ file contents (.done r) w := by
  intro w' hw' _
  obtain ⟨log, i, hbefore, hafter⟩ := hplace
  exact ⟨log, i, hbefore, hafter.trans (hw'.log file)⟩

theorem set_attributes_in_place_meets (hinv : Inv site w) (hplace : InPlace w₀ file contents w) :
    PublishMeets site t w₀ file contents
      (set_attributes (names file) file.mode (site.gids file.group) .done) w := by
  refine attribute_in_place_meets (sets_chmod _ _) (fun _ => rfl) hinv hplace (fun x w₁ hinv₁ h₁ => ?_)
  cases x with
  | false => exact done_in_place_meets h₁ false
  | true =>
    refine attribute_in_place_meets (sets_chown _ _) (fun _ => rfl) hinv₁ h₁ (fun x w₂ hinv₂ h₂ => ?_)
    cases x with
    | false => exact done_in_place_meets h₂ false
    | true =>
      exact attribute_in_place_meets (sets_chgrp _ _) (fun _ => rfl) hinv₂ h₂
        (fun x w₃ _ h₃ => done_in_place_meets h₃ x)

theorem put_in_place_meets {suffix : Suffix} {i : ℕ} (hinv : Inv site w)
    (hlog : w₀.log file <+: w.log file) (hoffered : site.offered file contents)
    (hdraft : Draft site t w file (tmp_name file suffix) i (site.inode file contents)) :
    PublishMeets site t w₀ file contents
      (put_in_place (names file) (tmp file suffix) file.mode (site.gids file.group)) w := by
  refine call_meets hinv hlog (fun w₁ x w₂ hw₁ hinv₁ hlog₁ hcall => ?_)
  have hdraft₁ := hw₁.draft hdraft
  cases x with
  | false =>
    obtain rfl := publish_refused hcall
    exact ⟨.inl rfl, give_up_meets hinv₁ hlog₁ hdraft₁⟩
  | true =>
    obtain ⟨hmoved, happended⟩ := rename_moved hinv₁ hoffered hdraft₁ hcall
    refine ⟨.inr ⟨hinv₁, hmoved⟩, set_attributes_in_place_meets hmoved.inv ⟨_, i, hlog₁, ?_⟩⟩
    rw [happended]

theorem mode_owned (file : File) : file.mode &&& 0o022 = 0 := by cases file <;> rfl

theorem publish_fsync {fd : ℕ} {flushed : Bool} (h : Publish t (.change (.fsync fd)) w flushed w') :
    w' = w := by
  cases flushed with
  | false => exact publish_refused h
  | true =>
    obtain ⟨hchange, hw'⟩ := publish_changed (fun _ _ h => (by cases h)) h
    rw [hw', fsync_changes hchange]

theorem write_file_meets (suffix : Suffix) (hinv : Inv site w) (hlog : w₀.log file <+: w.log file)
    (hoffered : site.offered file contents) :
    PublishMeets site t w₀ file contents
      (write_file (names file) (tmp file suffix) contents file.mode (site.gids file.group)) w := by
  refine call_meets hinv hlog (fun w₁ stream w₂ _ hinv₁ hlog₁ hcall => ?_)
  cases stream with
  | none =>
    obtain ⟨heffect, hnote⟩ := hcall
    have hsame : w₂ = w₁ := by
      rw [hnote, create_effect heffect]
      rfl
    exact ⟨.inl hsame.symm, done_false_meets w₂⟩
  | some i =>
    obtain ⟨hmoved, gid, hdraft₂⟩ := create_moved hinv₁ rfl hcall
    refine ⟨.inr ⟨hinv₁, hmoved⟩, ?_⟩
    refine call_meets hmoved.inv (hlog₁.trans (hmoved.log file))
      (fun w₃ written w₄ hw₃ hinv₃ hlog₃ hcall => ?_)
    have hdraft₃ := hw₃.draft hdraft₂
    obtain ⟨heffect, hnote⟩ := hcall
    obtain ⟨n, before, hn, hbefore, -, hfs⟩ := write_effect heffect
    rw [hdraft₃.inode] at hn
    cases hn
    cases hbefore
    obtain ⟨hmoved₄, hdraft₄⟩ := put_moved hinv₃ hdraft₃
      (draft_owned (show 0o600 &&& 0o022 = 0 from rfl) _)
      ⟨[] ++ contents.take written, rfl⟩
    have hw₄ : w₄ = { w₃ with
        fs := w₃.fs.put i ⟨0, gid, 0o600, .regular ([] ++ contents.take written)⟩ } := by
      rw [hnote, hfs]
      rfl
    rw [← hw₄] at hmoved₄ hdraft₄
    refine ⟨.inr ⟨hinv₃, hmoved₄⟩, ?_⟩
    refine call_meets hmoved₄.inv (hlog₃.trans (hmoved₄.log file))
      (fun w₅ flushed w₆ hw₅ hinv₅ hlog₅ hcall => ?_)
    have hdraft₅ := hw₅.draft hdraft₄
    obtain rfl := publish_fsync hcall
    refine ⟨.inl rfl, ?_⟩
    split
    · exact give_up_meets hinv₅ hlog₅ hdraft₅
    · rename_i hcomplete
      have hlength : written = contents.length := by
        by_contra hne
        exact hcomplete (.inl hne)
      rw [hlength, List.take_length, List.nil_append] at hdraft₅
      exact set_attributes_meets (mode_owned file) hinv₅ hlog₅ hdraft₅
        (fun w' n' hinv hlog hdraft => give_up_meets hinv hlog hdraft)
        (fun w' hinv hlog hdraft => put_in_place_meets hinv hlog hoffered hdraft)

theorem publish_lstat {path : List Text} {x : Except Errno Stat} (h : Publish t (.lstat path) w x w') :
    w' = w := by
  obtain ⟨heffect, hnote⟩ := h
  have hsame : w'.fs = w.fs :=
    effect_reading (show IsReading (.lstat path : Call Text Char) from trivial) heffect
  rw [hnote, hsame]
  rfl

theorem check_directories_meets {next : Script Bool}
    (hnext : ∀ w', Inv site w' → w₀.log file <+: w'.log file →
      PublishMeets site t w₀ file contents next w') :
    ∀ (parents : List (List Text)) (w : World τ), Inv site w → w₀.log file <+: w.log file →
      PublishMeets site t w₀ file contents (check_directories next parents) w := by
  intro parents
  induction parents with
  | nil => exact hnext
  | cons parent parents ih =>
    intro w hinv hlog
    refine call_meets hinv hlog (fun w₁ x w₂ _ hinv₁ hlog₁ hcall => ?_)
    obtain rfl := publish_lstat hcall
    refine ⟨.inl rfl, ?_⟩
    cases x with
    | error e => exact done_false_meets w₂
    | ok info =>
      dsimp only
      split
      · exact ih w₂ hinv₁ hlog₁
      · exact done_false_meets w₂

/-- Whatever the others do meanwhile, a call disturbs none of them, and what it returns is true. -/
theorem atomic_write_meets (file : File) (contents : Text) (suffix : Suffix)
    (hoffered : site.offered file contents) (hinv : Inv site w) :
    PublishMeets site t w file contents (atomic_write site.gids file contents suffix) w := by
  refine call_meets hinv List.prefix_rfl (fun w₁ x w₂ _ hinv₁ hlog₁ hcall => ?_)
  obtain ⟨heffect, hnote⟩ := hcall
  -- the directory is there
  have hdir : x = true ∧ w₂ = w₁ := by
    generalize w₂.fs = fs at heffect hnote
    cases heffect
    exact ⟨(hinv₁.reaches file).is_dir, hnote⟩
  obtain ⟨rfl, rfl⟩ := hdir
  exact ⟨.inl rfl, check_directories_meets
    (fun w' hinv' hlog' => write_file_meets suffix hinv' hlog' hoffered) _ w₂ hinv₁ hlog₁⟩

/-! ## Others

Processes of other users, seen from a PHP process: they leave alone what `Others` says. -/

/-- What processes of other users do. -/
theorem act_moved (hinv : Inv site w) {fs : FS Text Char} (h : Act 0 w.fs fs) :
    Inv site { w with fs } ∧ ∀ t, Others site t w { w with fs } := by
  have hversion : ∀ {i : ℕ} {n : Inode Text Char}, w.fs.inodes i = some n → n.Owned 0 →
      w.fs.held i = false → n.content.kind = .regular → fs.inodes i = some n ∧ fs.held i = false := by
    intro i n hn howned hheld hkind
    have hsealed := h.sealed ⟨howned, hn, fun _ => hheld⟩
    exact ⟨hsealed.inode, hsealed.not_held hkind⟩
  have hdirectory : ∀ {i : ℕ} {n : Inode Text Char} {entries : Text → Option ℕ},
      w.fs.inodes i = some n → n.content = .directory entries → n.Owned 0 → fs.inodes i = some n := by
    intro i n entries hn hentries howned
    refine (h.sealed ⟨howned, hn, fun hkind => ?_⟩).inode
    rw [hentries] at hkind
    cases hkind
  have hframe := h.frame
  constructor
  · constructor
    · intro file
      obtain ⟨hway, m, hm, htrusted⟩ := hinv.reaches file
      exact ⟨hframe.way hway hm htrusted, hframe.trusted hm htrusted⟩
    · intro file n entries hn hentries
      obtain ⟨-, m, hm, htrusted⟩ := hinv.reaches file
      obtain ⟨inner, hinner⟩ := m.content.directory_of_kind htrusted.directory
      have hsame := hdirectory hm hinner htrusted.toOwned
      rw [show fs.inodes (site.dirs file) = some n from hn] at hsame
      cases hsame
      exact hinv.current file n entries hm hentries
    · intro file i contents hmem
      obtain ⟨hi, hheld, hmaker⟩ := hinv.versions file i contents hmem
      obtain ⟨hi', hheld'⟩ := hversion hi ⟨rfl, mode_owned file⟩ hheld rfl
      exact ⟨hi', hheld', hmaker⟩
    · exact hinv.offered
    · intro i t hmaker
      obtain ⟨n, contents, hn, howned, hcontents, hheld⟩ := hinv.drafts i t hmaker
      obtain ⟨hn', hheld'⟩ := hversion hn howned hheld (by rw [hcontents]; rfl)
      exact ⟨n, contents, hn', howned, hcontents, hheld'⟩
  · intro t
    refine ⟨fun _ => List.prefix_rfl, fun i hmaker => ⟨hmaker, ?_⟩, fun file nm i _ hnamed => ?_,
      hframe⟩
    · obtain ⟨n, contents, hn, howned, hcontents, hheld⟩ := hinv.drafts i t hmaker
      exact (hversion hn howned hheld (by rw [hcontents]; rfl)).1.trans hn.symm
    · obtain ⟨n, entries, hn, hentries, hi⟩ := hnamed
      obtain ⟨-, m, hm, htrusted⟩ := hinv.reaches file
      rw [hn] at hm
      cases hm
      exact ⟨n, entries, hdirectory hn hentries htrusted.toOwned, hentries, hi⟩

/-! ## The readers

A reader has credentials of its own and must be able to search the directories and to read the
file. Its calls change nothing and are not noted, and what it returns is determined by the version
it has opened. -/

/-- The credentials let a process search the directories above the file. -/
def Searchable (site : Site) (w : World τ) (cred : Cred) (file : File) : Prop :=
  Way 0 cred w.fs root (directory file) (site.dirs file) ∧
    ∃ n, w.fs.inodes (site.dirs file) = some n ∧ n.Trusted 0 ∧ n.grants cred 0 = true

theorem Searchable.frame {cred : Cred} (h : Searchable site w cred file) (hframe : Frame 0 w.fs w'.fs) :
    Searchable site w' cred file := by
  obtain ⟨hway, n, hn, htrusted, hsearch⟩ := h
  obtain ⟨entries, hentries⟩ := n.content.directory_of_kind htrusted.directory
  obtain ⟨entries', hn', -⟩ := hframe _ n entries hn hentries htrusted.toOwned
  exact ⟨hframe.way hway hn htrusted, _, hn', ⟨⟨htrusted.uid, htrusted.mode⟩, rfl⟩, hsearch⟩

/-- The way to a file leads to a version of it. -/
theorem Inv.of_way (hinv : Inv site w) {cred : Cred} {i : ℕ}
    (h : Way 0 cred w.fs root (names file) i) :
    ∃ contents, (w.log file).getLast? = some (i, contents) ∧
      w.fs.inodes i = some (site.inode file contents) := by
  obtain ⟨d, hway, hlast⟩ := h.of_append
  obtain ⟨hreaches, -⟩ := hinv.reaches file
  obtain rfl := hreaches.unique (hway.of_root (show superuser.uid = 0 from rfl))
  cases hlast with
  | cons hn hentries _ _ hname hrest =>
    cases hrest
    obtain ⟨contents, hcurrent, hversion, -, -⟩ := hinv.of_name ⟨_, _, hn, hentries, hname⟩
    exact ⟨contents, hcurrent, hversion⟩

theorem rely_undisturbed (cred : Cred) (file : File) :
    Undisturbed (Rely site t) World.fs 0 cred (names file) := by
  constructor
  · rintro w w' above nm d - (rfl | ⟨-, -, hothers⟩) hreaches
    · exact hreaches
    · obtain ⟨hway, m, hm, htrusted⟩ := hreaches
      exact ⟨hothers.frame.way hway hm htrusted, hothers.frame.trusted hm htrusted⟩
  · rintro w w' i n (rfl | ⟨hinv, hinv', hothers⟩) hway - -
    · exact Iff.rfl
    · obtain ⟨contents, hlast, hversion⟩ := hinv.of_way hway
      obtain ⟨hversion', -⟩ := hinv'.versions file i contents
        ((hothers.log file).subset (List.mem_of_getLast? hlast))
      rw [hversion, hversion']

/-- The reader takes these contents for `d`. -/
def Accepts {ε δ : Type} (check : Check Text Char ε δ) (site : Site) (file : File)
    (contents : Text) (d : δ) : Prop :=
  check.file (site.inode file contents).stat = .ok () ∧
    check.data (contents.take check.limit) = .ok d

/-- What an undisturbed read gets is the current version. -/
theorem reads_iff_current {ε δ : Type} {check : Check Text Char ε δ} (howner : check.owner = 0)
    (hinv : Inv site w) {cred : Cred} (hsearch : Searchable site w cred file)
    (hread : (site.inode file []).grants cred 2 = true)
    (d : δ) : Reads check cred w.fs ⟨true, names file⟩ d ↔
      ∃ i contents, (w.log file).getLast? = some (i, contents) ∧
        Accepts check site file contents d := by
  rw [Reads, howner]
  constructor
  · rintro ⟨-, i, n, contents, hway, hn, hcontents, -, hfile, hdata⟩
    obtain ⟨data, hlast, hversion⟩ := hinv.of_way hway
    rw [hn] at hversion
    cases hversion
    cases hcontents
    exact ⟨i, contents, hlast, hfile, hdata⟩
  · rintro ⟨i, contents, hlast, hfile, hdata⟩
    obtain ⟨hway, m, hm, htrusted, hgrants⟩ := hsearch
    obtain ⟨entries, hentries⟩ := m.content.directory_of_kind htrusted.directory
    have hcurrent := hinv.current file m entries hm hentries
    rw [hlast] at hcurrent
    obtain ⟨hversion, -, -⟩ := hinv.versions file i contents (List.mem_of_getLast? hlast)
    exact ⟨rfl, i, _, contents, hway.append (Way.cons hm hentries htrusted.toOwned hgrants hcurrent
      (Way.nil i)), hversion, rfl, hread, hfile, hdata⟩

end World

/-! ## Writers and readers together -/

/-- A reader of a file, with the credentials it runs with. -/
structure FileTask where
  reader : Reader
  cred : Cred
  file : File

section Together

variable {π ρ : Type} [DecidableEq π] [DecidableEq ρ] (site : Site) (tasks : ρ → FileTask)

abbrev Result : π ⊕ ρ → Type
  | .inl _ => Bool
  | .inr r => Except (tasks r).reader.Raised (tasks r).reader.Result

/-- The calls of a reader. -/
def Observe (cred : Cred) (call : Call Text Char) (w : World (π ⊕ ρ)) (x : Answer call)
    (w' : World (π ⊕ ρ)) : Prop :=
  Effect cred w.fs call x w'.fs ∧ w' = { w with fs := w'.fs }

/-- Who makes the call: a PHP process, whose calls are noted, or a reader. -/
def Execute : π ⊕ ρ → Exec (World (π ⊕ ρ)) (Call Text Char) Answer
  | .inl p => Publish (.inl p)
  | .inr r => Observe (tasks r).cred

/-- Processes of other users. -/
def Foreign (w w' : World (π ⊕ ρ)) : Prop := ∃ fs, Act 0 w.fs fs ∧ w' = { w with fs }

/-- What a process may do from its start to its end: a call of `f2bguard_atomic_write`, or a read. -/
def Allowed : (t : π ⊕ ρ) → Prog (Call Text Char) Answer (Result tasks t) → Prop
  | .inl _, p => ∃ file contents suffix, site.offered file contents ∧
      p = atomic_write site.gids file contents suffix
  | .inr r, p => p = secure_file (tasks r).reader.check ⟨true, names (tasks r).file⟩

abbrev PackageState :=
  RelyGuarantee.State (π ⊕ ρ) (World (π ⊕ ρ)) (Call Text Char) Answer (Result tasks)

abbrev PackageStep := @RelyGuarantee.Step (π ⊕ ρ) (World (π ⊕ ρ)) (Call Text Char) _ Answer
  (Result tasks) (Execute tasks) Foreign (Allowed site tasks)

variable {site} {tasks}

omit [DecidableEq π] [DecidableEq ρ] in
theorem observe_runs (r : ρ) : TrustedFiles.Runs (Observe (π := π) (ρ := ρ) (tasks r).cred) World.fs
    (tasks r).cred (Rely site (.inr r)) (Guar site (.inr r)) := by
  refine ⟨rely_preordered, fun _ => .inl rfl, fun {call w x w'} hreading h => ?_⟩
  obtain ⟨heffect, hw'⟩ := h
  have hsame := effect_reading hreading heffect
  rw [hsame] at hw' heffect
  exact ⟨hw', heffect⟩

omit [DecidableEq π] [DecidableEq ρ] in
theorem read_meets (r : ρ) (w : World (π ⊕ ρ)) :
    Meets (Observe (tasks r).cred) (Rely site (.inr r)) (Guar site (.inr r))
      (AtOnce (Rely site (.inr r)) World.fs (tasks r).cred (tasks r).reader.check
        ⟨true, names (tasks r).file⟩ w)
      (secure_file (tasks r).reader.check ⟨true, names (tasks r).file⟩) w := by
  refine secure_file_meets (observe_runs r) (tasks r).reader.check_trusting ?_ w
  rw [Reader.check_owner]
  exact rely_undisturbed (tasks r).cred (tasks r).file

omit [DecidableEq π] [DecidableEq ρ] in
/-- Each process relies on no more than what the others guarantee. -/
theorem package_compatible : @Compatible (π ⊕ ρ) (World (π ⊕ ρ)) (Call Text Char) Answer (Result tasks)
    (Execute tasks) Foreign (Allowed site tasks) (Rely site) (Guar site) (Inv site) where
  preordered _ := rely_preordered
  outside t w w' hinv h := by
    obtain ⟨fs, hact, rfl⟩ := h
    obtain ⟨hinv', hothers⟩ := act_moved hinv hact
    exact .inr ⟨hinv, hinv', hothers t⟩
  others t t' w w' hne _ h := by
    rcases h with rfl | ⟨hinv, hmoved⟩
    · exact .inl rfl
    · exact .inr ⟨hinv, hmoved.inv, hmoved.others t' (fun heq => hne heq.symm)⟩
  inv_outside w w' hinv h := by
    obtain ⟨fs, hact, rfl⟩ := h
    exact (act_moved hinv hact).1
  inv_own t w w' hinv h := by
    rcases h with rfl | ⟨-, hmoved⟩
    · exact hinv
    · exact hmoved.inv
  started t p w hinv h := by
    cases t with
    | inl _ =>
      obtain ⟨file, contents, suffix, hoffered, rfl⟩ := h
      exact (atomic_write_meets file contents suffix hoffered hinv).mono (fun _ _ _ => trivial)
    | inr r =>
      obtain rfl := h
      exact (read_meets r w).mono (fun _ _ _ => trivial)

omit [DecidableEq π] [DecidableEq ρ] in
theorem safe_of_idle {s : PackageState tasks} (hidle : ∀ t : π ⊕ ρ, ∃ r, s.progs t = .done r)
    (hinv : Inv site s.world) :
    Safe (Execute (π := π) tasks) (Rely site) (Guar site) (Inv site) s := by
  refine ⟨hinv, fun t => ?_⟩
  obtain ⟨r, hr⟩ := hidle t
  rw [hr]
  exact fun _ _ => trivial

/-- **What a reader gets has been published.** Let any number of PHP processes write the files of the
package, and any number of readers read them, each killed when it may be, while processes of other
users do what they can. At the start the directories of the files are there and are trusted, and each
file is the last of its versions (`Inv`). The reader may search these directories (`Searchable`) and
read a file with the owner, group and mode of the package.

A read that comes to an end returns a version of its file that was the current one at a moment since
it started, in full and as a call of `f2bguard_atomic_write` was given it; it returns nothing exactly
when it does not accept that version, or there was none. -/
theorem published_read {labels labels' : List (Label (π ⊕ ρ))} {s₀ s s' s'' : PackageState tasks}
    (hidle : ∀ t : π ⊕ ρ, ∃ r, s₀.progs t = .done r) (hinv : Inv site s₀.world)
    (h : Run (PackageStep site tasks) s₀ labels s) (r : ρ)
    (hstart : PackageStep site tasks s (.start (.inr r)) s')
    (hsearch : Searchable site s.world (tasks r).cred (tasks r).file)
    (hread : (site.inode (tasks r).file []).grants (tasks r).cred 2 = true)
    (h' : Run (PackageStep site tasks) s' labels' s'') (honce : Label.start (.inr r) ∉ labels')
    {result : Result tasks (.inr r : π ⊕ ρ)} (hdone : s''.progs (.inr r) = .done result) :
    ∃ log, s.world.log (tasks r).file <+: log ∧ log <+: s''.world.log (tasks r).file ∧
      (∀ i contents, (i, contents) ∈ log → site.offered (tasks r).file contents) ∧
      ∀ d, result = .ok d ↔ ∃ i contents, log.getLast? = some (i, contents) ∧
        Accepts (tasks r).reader.check site (tasks r).file contents d := by
  have hsafe := safe_run package_compatible (safe_of_idle hidle hinv) h
  cases hstart with
  | start hallowed =>
    cases hallowed
    have hallowed : Allowed site tasks (.inr r : π ⊕ ρ)
        (secure_file (tasks r).reader.check ⟨true, names (tasks r).file⟩) := rfl
    obtain ⟨w, hbefore, hafter, hreads⟩ := result_of_run package_compatible hsafe hallowed
      (read_meets r s.world) h' honce hdone
    have hinv' := hbefore.inv hsafe.inv
    have hsearch' : Searchable site w (tasks r).cred (tasks r).file := by
      rcases hbefore with rfl | ⟨-, -, hothers⟩
      · exact hsearch
      · exact hsearch.frame hothers.frame
    refine ⟨w.log (tasks r).file, hbefore.log _, hafter.log _, hinv'.offered _, fun d => ?_⟩
    exact (hreads d).trans
      (reads_iff_current (tasks r).reader.check_owner hinv' hsearch' hread d)

/-- **What a call has written is in place.** At the start the directories of the files are there and are
trusted, and each file is the last of its versions (`Inv`). A call of `f2bguard_atomic_write` that
returned `true` has put its contents in place, in full, between its start and its end. What the path
names now is a version too: these contents, or what was renamed over them. -/
theorem published_write {labels labels' : List (Label (π ⊕ ρ))} {s₀ s s' : PackageState tasks}
    (hidle : ∀ t : π ⊕ ρ, ∃ r, s₀.progs t = .done r) (hinv : Inv site s₀.world)
    (h : Run (PackageStep site tasks) s₀ labels s) (p : π) (file : File) (contents : Text)
    (suffix : Suffix) (hoffered : site.offered file contents)
    (h' : Run (PackageStep site tasks)
      (s.goto (.inl p) (atomic_write site.gids file contents suffix) s.world) labels' s')
    (honce : Label.start (.inl p) ∉ labels') (hdone : s'.progs (.inl p) = .done true) :
    InPlace s.world file contents s'.world ∧ ∃ i data, (s'.world.log file).getLast? = some (i, data) ∧
      s'.world.fs.resolve superuser false (names file) = .ok i ∧
      s'.world.fs.inodes i = some (site.inode file data) := by
  have hsafe := safe_run package_compatible (safe_of_idle hidle hinv) h
  have hallowed : Allowed site tasks (.inl p) (atomic_write site.gids file contents suffix) :=
    ⟨file, contents, suffix, hoffered, rfl⟩
  have hplace : InPlace s.world file contents s'.world :=
    result_of_run package_compatible hsafe hallowed
      (atomic_write_meets file contents suffix hoffered hsafe.inv) h' honce hdone rfl
  have hstarted := safe_step package_compatible hsafe (Step.start hallowed)
  have hsafe' := safe_run package_compatible hstarted h'
  refine ⟨hplace, ?_⟩
  obtain ⟨log, j, -, hlog⟩ := hplace
  cases hlast : (s'.world.log file).getLast? with
  | none =>
    rw [List.getLast?_eq_none_iff.mp hlast] at hlog
    exact absurd (List.prefix_nil.mp hlog) (by simp)
  | some version =>
    obtain ⟨i, data⟩ := version
    exact ⟨i, data, rfl, resolve_current hsafe'.inv hlast⟩

end Together

/-! ## A whitelist that is published and read -/

def sample_dirs : File → ℕ
  | .whitelist | .config_json => 6
  | .server_crt | .server_key | .ca_crt => 7
  | .rc_conf => 8

def sample_site : Site where
  gids group := if group = "wheel" then 0 else 812
  dirs := sample_dirs
  offered file contents := file = .whitelist ∧ contents = sample_whitelist

def folder (entries : List (Text × ℕ)) : Inode Text Char :=
  ⟨0, 0, 0o755, .directory (fun nm => entries.lookup nm)⟩

/-- The directories of the package, and no file in them. -/
def host_fs : FS Text Char where
  inodes i :=
    if i = root then some (folder [("usr".toList, 3)])
    else if i = 3 then some (folder [("local".toList, 4)])
    else if i = 4 then some (folder [("etc".toList, 5)])
    else if i = 5 then some (folder [("f2bguard".toList, 6), ("rc.conf.d".toList, 8)])
    else if i = 6 then some (folder [("tls".toList, 7)])
    else if i = 7 ∨ i = 8 then some (folder [])
    else none
  held _ := false

def host : World (Unit ⊕ Unit) := ⟨host_fs, fun _ => [], fun _ => none⟩

theorem folder_trusted (entries : List (Text × ℕ)) : (folder entries).Trusted 0 :=
  ⟨⟨rfl, by show 0o755 &&& 0o022 = 0; decide⟩, rfl⟩

theorem folder_grants (entries : List (Text × ℕ)) (cred : Cred) :
    (folder entries).grants cred 0 = true := by
  have hbits : (0o755 : ℕ).testBit 6 = true ∧ (0o755 : ℕ).testBit 3 = true ∧
      (0o755 : ℕ).testBit 0 = true := by decide
  obtain ⟨huser, hgroup, hother⟩ := hbits
  rw [Inode.grants, folder]
  dsimp only
  rw [huser, hgroup, hother, ite_self, ite_self, Bool.or_true]

theorem folder_way {fs : FS Text Char} {cred : Cred} {a : ℕ} {entries : List (Text × ℕ)}
    {above : List Text} (nm : Text) (j : ℕ) (h : Way 0 cred fs root above a)
    (ha : fs.inodes a = some (folder entries)) (hname : entries.lookup nm = some j) :
    Way 0 cred fs root (above ++ [nm]) j :=
  h.append (Way.cons ha rfl (folder_trusted entries).toOwned (folder_grants entries cred) hname
    (Way.nil j))

theorem host_reaches (cred : Cred) (file : File) :
    Reaches 0 cred host_fs (directory file) (sample_dirs file) := by
  have husr := folder_way "usr".toList 3 (@Way.nil _ _ 0 cred host_fs root) rfl rfl
  have hlocal := folder_way "local".toList 4 husr rfl rfl
  have hetc := folder_way "etc".toList 5 hlocal rfl rfl
  have hpackage := folder_way "f2bguard".toList 6 hetc rfl rfl
  have htls := folder_way "tls".toList 7 hpackage rfl rfl
  have hrc := folder_way "rc.conf.d".toList 8 hetc rfl rfl
  cases file with
  | whitelist => exact ⟨hpackage, _, rfl, folder_trusted _⟩
  | config_json => exact ⟨hpackage, _, rfl, folder_trusted _⟩
  | rc_conf => exact ⟨hrc, _, rfl, folder_trusted _⟩
  | _ => exact ⟨htls, _, rfl, folder_trusted _⟩

theorem host_inv : Inv sample_site host := by
  refine ⟨host_reaches superuser, ?_, fun _ _ _ h => absurd h List.not_mem_nil,
    fun _ _ _ h => absurd h List.not_mem_nil, fun _ _ h => absurd h nofun⟩
  intro file n entries hn hentries
  cases file <;> cases (show some (folder _) = some n from hn) <;> cases hentries <;> decide

def sample_tasks (_ : Unit) : FileTask := ⟨.secure_read_root_file 20, ⟨812, [812]⟩, .whitelist⟩

/-- The programs of the writer and of the reader. -/
def both (p : Script Bool) (q : Prog (Call Text Char) Answer (Except HelperClient.Failed Text)) :
    (t : Unit ⊕ Unit) → Prog (Call Text Char) Answer (Result sample_tasks t)
  | .inl _ => p
  | .inr _ => q

abbrev SampleStep := PackageStep (π := Unit) sample_site sample_tasks

abbrev SamplePackage := PackageState (π := Unit) sample_tasks

theorem goto_writer (w w' : World (Unit ⊕ Unit)) (p p' : Script Bool)
    (q : Prog (Call Text Char) Answer (Except HelperClient.Failed Text)) :
    State.goto (⟨w, both p q⟩ : SamplePackage) (.inl ()) p' w' = ⟨w', both p' q⟩ := by
  refine congrArg (State.mk w') (funext fun t => ?_)
  cases t with
  | inl _ => exact Function.update_self _ _ _
  | inr _ => exact Function.update_of_ne Sum.inr_ne_inl _ _

theorem goto_reader (w w' : World (Unit ⊕ Unit)) (p : Script Bool)
    (q q' : Prog (Call Text Char) Answer (Except HelperClient.Failed Text)) :
    State.goto (⟨w, both p q⟩ : SamplePackage) (.inr ()) q' w' = ⟨w', both p q'⟩ := by
  refine congrArg (State.mk w') (funext fun t => ?_)
  cases t with
  | inl _ => exact Function.update_of_ne Sum.inl_ne_inr _ _
  | inr _ => exact Function.update_self _ _ _

theorem writer_step {w w' : World (Unit ⊕ Unit)} {call : Call Text Char} {x : Answer call}
    {next : Answer call → Script Bool} {p p' : Script Bool}
    {q : Prog (Call Text Char) Answer (Except HelperClient.Failed Text)} (hp : p = .call call next)
    (h : Effect superuser w.fs call x w'.fs) (hw' : w' = w.note (.inl ()) w'.fs call x)
    (hp' : next x = p') :
    SampleStep (⟨w, both p q⟩ : SamplePackage) (.call (.inl ())) ⟨w', both p' q⟩ := by
  rw [← hp', ← goto_writer w w' p (next x) q]
  exact RelyGuarantee.Step.call hp ⟨h, hw'⟩

theorem reader_step {w : World (Unit ⊕ Unit)} {call : Call Text Char} {x : Answer call}
    {next : Answer call → Prog (Call Text Char) Answer (Except HelperClient.Failed Text)}
    {p : Script Bool} {q q' : Prog (Call Text Char) Answer (Except HelperClient.Failed Text)}
    (hq : q = .call call next) (h : Effect ⟨812, [812]⟩ w.fs call x w.fs) (hq' : next x = q') :
    SampleStep (⟨w, both p q⟩ : SamplePackage) (.call (.inr ())) ⟨w, both p q'⟩ := by
  rw [← hq', ← goto_reader w w p q (next x)]
  exact RelyGuarantee.Step.call hq ⟨h, rfl⟩

theorem sample_hex_length : "0123456789abcdef".toList.length = 16 := by decide

def sample_suffix : Suffix := ⟨"0123456789abcdef".toList, sample_hex_length⟩

abbrev draft_name : Text := tmp_name .whitelist sample_suffix

abbrev draft_path : List Text := tmp .whitelist sample_suffix

def draft (gid mode : ℕ) (contents : Text) : Inode Text Char := ⟨0, gid, mode, .regular contents⟩

/-- The temporary file is there. -/
def draft_fs : FS Text Char := host_fs.make 9 (draft 0 0o600 []) 6 draft_name

/-- It is renamed into place. -/
def placed_fs : FS Text Char :=
  ((draft_fs.put 9 (draft 812 0o640 sample_whitelist)).link 6 draft_name none).link 6
    (name .whitelist) (some 9)

def preparing (fs : FS Text Char) : World (Unit ⊕ Unit) :=
  ⟨fs, fun _ => [], Function.update (fun _ => none) 9 (some (.inl ()))⟩

def placed : World (Unit ⊕ Unit) :=
  ⟨placed_fs, Function.update (fun _ => []) .whitelist [(9, sample_whitelist)],
    Function.update (Function.update (fun _ => none) 9 (some (.inl ()))) 9 none⟩

theorem sample_created : Effect superuser host.fs (.create draft_path 0o600) (some 9) draft_fs := by
  have hplace : host_fs.Place superuser draft_path 6 draft_name := ⟨_, rfl, by decide +kernel⟩
  exact Effect.create hplace (by decide +kernel) (by decide +kernel)

theorem put_put (fs : FS Text Char) (i : ℕ) (n n' : Inode Text Char) :
    (fs.put i n).put i n' = fs.put i n' := congrArg (FS.mk · fs.held) (Function.update_idem ..)

theorem put_same {fs : FS Text Char} {i : ℕ} {n : Inode Text Char} (h : fs.inodes i = some n) :
    fs.put i n = fs :=
  congrArg (FS.mk · fs.held) ((congrArg _ h.symm).trans (Function.update_eq_self i _))

theorem draft_resolves (gid mode : ℕ) (contents : Text) :
    (draft_fs.put 9 (draft gid mode contents)).resolve superuser false draft_path = .ok 9 := rfl

theorem draft_inode (gid mode : ℕ) (contents : Text) :
    (draft_fs.put 9 (draft gid mode contents)).inodes 9 = some (draft gid mode contents) :=
  (put_inodes ..).trans (if_pos rfl)

abbrev writing : Script Bool :=
  write_file (names .whitelist) draft_path sample_whitelist 0o640 812

abbrev checking (parents : List (List Text)) : Script Bool := check_directories writing parents

/-- An attribute of the temporary file. -/
theorem sample_attribute {gid mode gid' mode' : ℕ} {change : Change Text}
    {next : Bool → Script Bool} {q : Prog (Call Text Char) Answer (Except HelperClient.Failed Text)}
    (hrename : ∀ source target, change ≠ .rename source target)
    (h : Changes superuser (draft_fs.put 9 (draft gid mode sample_whitelist)) change
      ((draft_fs.put 9 (draft gid mode sample_whitelist)).put 9 (draft gid' mode' sample_whitelist))) :
    SampleStep (⟨preparing (draft_fs.put 9 (draft gid mode sample_whitelist)),
        both (.call (.change change) next) q⟩ : SamplePackage) (.call (.inl ()))
      ⟨preparing (draft_fs.put 9 (draft gid' mode' sample_whitelist)), both (next true) q⟩ := by
  rw [put_put] at h
  refine writer_step rfl (Effect.changed h) ?_ rfl
  cases change with
  | rename source target => exact absurd rfl (hrename source target)
  | _ => rfl

/-- The attributes of the file in place are what they were. -/
theorem sample_attribute_in_place {change : Change Text} {next : Bool → Script Bool}
    {q : Prog (Call Text Char) Answer (Except HelperClient.Failed Text)}
    (hrename : ∀ source target, change ≠ .rename source target)
    (h : Changes superuser placed_fs change (placed_fs.put 9 (draft 812 0o640 sample_whitelist))) :
    SampleStep (⟨placed, both (.call (.change change) next) q⟩ : SamplePackage) (.call (.inl ()))
      ⟨placed, both (next true) q⟩ := by
  rw [put_same (show placed_fs.inodes 9 = some (draft 812 0o640 sample_whitelist) from rfl)] at h
  refine writer_step rfl (Effect.changed h) ?_ rfl
  cases change with
  | rename source target => exact absurd rfl (hrename source target)
  | _ => rfl

theorem sample_renamed (q : Prog (Call Text Char) Answer (Except HelperClient.Failed Text)) :
    SampleStep (⟨preparing (draft_fs.put 9 (draft 812 0o640 sample_whitelist)),
        both (put_in_place (names .whitelist) draft_path 0o640 812) q⟩ : SamplePackage)
      (.call (.inl ()))
      ⟨placed, both (set_attributes (names .whitelist) 0o640 812 .done) q⟩ := by
  have hsource : (draft_fs.put 9 (draft 812 0o640 sample_whitelist)).Place superuser draft_path 6
      draft_name := ⟨_, rfl, rfl⟩
  have htarget : (draft_fs.put 9 (draft 812 0o640 sample_whitelist)).Place superuser
      (names .whitelist) 6 (name .whitelist) := ⟨_, rfl, rfl⟩
  refine writer_step rfl
    (Effect.changed (Changes.rename hsource rfl htarget (fun j n hj _ => ?_))) rfl rfl
  have hnone : (draft_fs.put 9 (draft 812 0o640 sample_whitelist)).entry superuser 6 (name .whitelist) =
      .error .ENOENT := rfl
  rw [hnone] at hj
  cases hj

/-- The directories pass. -/
theorem sample_checked {q : Prog (Call Text Char) Answer (Except HelperClient.Failed Text)}
    {parent : List Text} (parents : List (List Text))
    (hparent : host_fs.lstat superuser parent = .ok (folder []).stat) :
    SampleStep (⟨host, both (checking (parent :: parents)) q⟩ : SamplePackage) (.call (.inl ()))
      ⟨host, both (checking parents) q⟩ := by
  refine writer_step rfl (Effect.lstat parent) rfl ?_
  rw [show host.fs.lstat superuser parent = _ from hparent]
  rfl

abbrev written_fs : FS Text Char := draft_fs.put 9 (draft 0 0o600 sample_whitelist)

abbrev sample_call : Script Bool :=
  atomic_write sample_site.gids .whitelist sample_whitelist sample_suffix

theorem sample_write_effect : Effect superuser draft_fs (.write 9 sample_whitelist)
    sample_whitelist.length (draft_fs.put 9 (draft 0 0o600 sample_whitelist)) := by
  have h := @Effect.write Text Char _ superuser draft_fs 9 sample_whitelist.length sample_whitelist []
    (draft 0 0o600 []) rfl rfl le_rfl
  rw [List.nil_append, List.take_length] at h
  exact h

theorem sample_written (q : Prog (Call Text Char) Answer (Except HelperClient.Failed Text)) :
    Run SampleStep (⟨host, both sample_call q⟩ : SamplePackage) (List.replicate 16 (.call (.inl ())))
      ⟨placed, both (.done true) q⟩ := by
  have hresolved := draft_resolves
  have hinode := draft_inode
  have hplaced : placed_fs.inodes 9 = some (draft 812 0o640 sample_whitelist) := rfl
  have hpath : placed_fs.resolve superuser false (names .whitelist) = .ok 9 := rfl
  refine Run.cons (@writer_step host host _ _ _ _ (checking (directory .whitelist).inits.reverse) q rfl
    (Effect.is_dir _) rfl rfl) ?_
  refine Run.cons (sample_checked _ rfl) (Run.cons (sample_checked _ rfl) ?_)
  refine Run.cons (sample_checked _ rfl) (Run.cons (sample_checked _ rfl) ?_)
  refine Run.cons (sample_checked _ rfl) ?_
  refine Run.cons (@writer_step host (preparing draft_fs) _ _ _ _ _ q rfl sample_created rfl rfl) ?_
  refine Run.cons (@writer_step _ (preparing written_fs) _ _ _ _ _ q rfl sample_write_effect rfl rfl) ?_
  refine Run.cons (@writer_step _ (preparing written_fs) _ true _ _ (set_attributes draft_path 0o640 812 _)
    q rfl (Effect.changed (Changes.fsync 9)) rfl (if_neg (by simp))) ?_
  refine Run.cons (@sample_attribute 0 0o600 0 0o640 _ _ q nofun
    (Changes.chmod (hresolved ..) (hinode ..))) ?_
  refine Run.cons (@sample_attribute 0 0o640 0 0o640 _ _ q nofun
    (Changes.chown (hresolved ..) (hinode ..))) ?_
  refine Run.cons (@sample_attribute 0 0o640 812 0o640 _ _ q nofun
    (Changes.chgrp (hresolved ..) (hinode ..))) ?_
  refine Run.cons (sample_renamed q) ?_
  refine Run.cons (sample_attribute_in_place nofun (Changes.chmod hpath hplaced)) ?_
  refine Run.cons (sample_attribute_in_place nofun (Changes.chown hpath hplaced)) ?_
  exact Run.cons (sample_attribute_in_place nofun (Changes.chgrp hpath hplaced)) Run.nil

abbrev idle : SamplePackage := ⟨host, both (.done false) (.done (.error .other))⟩

theorem idle_done (t : Unit ⊕ Unit) : ∃ r, idle.progs t = .done r := by
  cases t with
  | inl _ => exact ⟨_, rfl⟩
  | inr _ => exact ⟨_, rfl⟩

theorem published_write_sample : InPlace host .whitelist sample_whitelist placed ∧
    ∃ i data, (placed.log .whitelist).getLast? = some (i, data) ∧
      placed_fs.resolve superuser false (names .whitelist) = .ok i ∧
      placed_fs.inodes i = some (sample_site.inode .whitelist data) := by
  have hrun := sample_written (.done (.error .other))
  rw [← goto_writer host host (.done false) sample_call] at hrun
  have hlabels : Label.start (Sum.inl ()) ∉
      List.replicate 16 (Label.call (Sum.inl () : Unit ⊕ Unit)) := by
    intro h
    cases List.eq_of_mem_replicate h
  exact published_write idle_done host_inv Run.nil () .whitelist sample_whitelist sample_suffix
    ⟨rfl, rfl⟩ hrun hlabels rfl

abbrev read_whitelist : Prog (Call Text Char) Answer (Except HelperClient.Failed Text) :=
  secure_file (_secure_read_root_file 20) ⟨true, names .whitelist⟩

theorem sample_parent {next : Prog (Call Text Char) Answer (Except HelperClient.Failed Text)}
    {parent : List Text} (parents : List (List Text))
    (h : placed_fs.lstat ⟨812, [812]⟩ parent = .ok (folder []).stat) :
    SampleStep (⟨placed, both (.done true)
        (check_parents (_secure_read_root_file 20) next (parent :: parents))⟩ : SamplePackage)
      (.call (.inr ()))
      ⟨placed, both (.done true) (check_parents (_secure_read_root_file 20) next parents)⟩ := by
  refine reader_step rfl (Effect.lstat parent) ?_
  rw [show placed.fs.lstat ⟨812, [812]⟩ parent = _ from h]
  rfl

theorem sample_read_run : Run SampleStep (⟨placed, both (.done true) read_whitelist⟩ : SamplePackage)
    (List.replicate 9 (.call (.inr ()))) ⟨placed, both (.done true) (.done (.ok sample_whitelist))⟩ := by
  have hcontents : placed_fs.inodes 9 = some (draft 812 0o640 sample_whitelist) := rfl
  have hread : Effect ⟨812, [812]⟩ placed_fs (.read 9 0 21) (.ok sample_whitelist) placed_fs :=
    Effect.read (Reading.data hcontents rfl (by decide) (by decide))
  have hend : Effect ⟨812, [812]⟩ placed_fs (.read 9 13 8) (.ok []) placed_fs :=
    Effect.read (Reading.data hcontents rfl (by decide) (by decide))
  refine Run.cons (sample_parent _ rfl) (Run.cons (sample_parent _ rfl) ?_)
  refine Run.cons (sample_parent _ rfl) (Run.cons (sample_parent _ rfl) ?_)
  refine Run.cons (sample_parent _ rfl) ?_
  refine Run.cons (reader_step rfl (Effect.open_nofollow _) rfl) ?_
  refine Run.cons (reader_step rfl (Effect.fstat 9) rfl) ?_
  refine Run.cons (reader_step rfl hread rfl) ?_
  exact Run.cons (reader_step rfl hend rfl) Run.nil

theorem placed_searchable (cred : Cred) : Searchable sample_site placed cred .whitelist := by
  have husr := folder_way "usr".toList 3 (@Way.nil _ _ 0 cred placed_fs root) rfl rfl
  have hlocal := folder_way "local".toList 4 husr rfl rfl
  have hetc := folder_way "etc".toList 5 hlocal rfl rfl
  obtain ⟨entries, hentries⟩ : ∃ entries, placed_fs.inodes 6 = some ⟨0, 0, 0o755, .directory entries⟩ :=
    ⟨_, rfl⟩
  exact ⟨folder_way "f2bguard".toList 6 hetc rfl rfl, _, hentries,
    ⟨⟨rfl, (folder_trusted []).toOwned.mode⟩, rfl⟩, folder_grants [] cred⟩

theorem published_read_sample : ∃ log, placed.log .whitelist <+: log ∧ log <+: placed.log .whitelist ∧
    (∀ i contents, (i, contents) ∈ log → sample_site.offered .whitelist contents) ∧
    ∀ d, (.ok sample_whitelist : Except HelperClient.Failed Text) = .ok d ↔
      ∃ i contents, log.getLast? = some (i, contents) ∧
        Accepts (_secure_read_root_file 20) sample_site .whitelist contents d := by
  have hallowed : Allowed sample_site sample_tasks (.inl () : Unit ⊕ Unit) sample_call :=
    ⟨.whitelist, sample_whitelist, sample_suffix, ⟨rfl, rfl⟩, rfl⟩
  have hread : Allowed sample_site sample_tasks (.inr () : Unit ⊕ Unit) read_whitelist := rfl
  have hfirst : SampleStep idle (.start (.inl ()))
      ⟨host, both sample_call (.done (.error .other))⟩ := by
    rw [← goto_writer host host (.done false)]
    exact RelyGuarantee.Step.start hallowed
  have hstart : SampleStep (⟨placed, both (.done true) (.done (.error .other))⟩ : SamplePackage)
      (.start (.inr ())) ⟨placed, both (.done true) read_whitelist⟩ := by
    rw [← goto_reader placed placed (.done true) (.done (.error .other)) read_whitelist]
    exact RelyGuarantee.Step.start hread
  have hlabels : Label.start (Sum.inr ()) ∉
      List.replicate 9 (Label.call (Sum.inr () : Unit ⊕ Unit)) := by
    intro h
    cases List.eq_of_mem_replicate h
  exact published_read idle_done host_inv (Run.cons hfirst (sample_written _)) () hstart
    (placed_searchable _) rfl sample_read_run hlabels rfl

end F2bguard.Publication
