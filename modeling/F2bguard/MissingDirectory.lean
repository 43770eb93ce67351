/-
A published file whose directory is missing.

`published_read` and `published_write` start from directories that are there. This module is
about the other branch of `f2bguard_atomic_write`: when `is_dir` denies the directory of the
file, the call makes it with all that is missing above it, and then sets its mode, its owner
and its group. Only after that does it go on as in the other case (`atomic_write_eq`).

Processes of other users work on the file system between any two calls. They cannot get in the
way, although the path is looked up anew each time: what is there already is trusted, each
directory is made by root with mode 0750 inside one that is trusted, and so is trusted itself
before the next name is made in it. A call that comes to the end of the branch has the
directory with the mode, owner and group it wanted (`directory_made`), and the loop that then
looks at every directory from there to the root finds nothing wrong (`missing_directory_meets`).

What the branch does not do is repair. The attributes are set after the directories were made,
and a process may be killed in between. The directory then has the group it was made with, the
next call finds it there and leaves its attributes alone, and a reader of the package's group
may not be able to search it. That is why `published_read` asks for `Searchable`.
-/
import F2bguard.Publication

set_option autoImplicit false

namespace F2bguard.Publication

open F2bguard.PyText F2bguard.FileSystem F2bguard.RelyGuarantee F2bguard.TrustedFiles
open F2bguard.Service (File)

/-! ## The branch

`atomic_write` is written in one piece, as in the source. Here it is taken apart at the point
where both cases meet again. -/

/-- What is done for a directory that is missing. The answer says whether all of it succeeded. -/
def make_directory (gids : String → ℕ) (file : File) : Script Bool :=
  mkdir_all (fun made =>
    if made then set_attributes (directory file) 0o750 (gids file.group) .done else .done false)
    (directory file).inits

/-- From the check of the directories on. -/
def publish_into (gids : String → ℕ) (file : File) (contents : Text) (suffix : Suffix) : Script Bool :=
  check_directories (write_file (names file) (tmp file suffix) contents file.mode (gids file.group))
    (directory file).inits.reverse

theorem call_congr {α : Type} {c : Call Text Char} {next next' : Answer c → Script α}
    (h : ∀ x, next x = next' x) : (.call c next : Script α) = .call c next' :=
  congrArg _ (funext h)

theorem bind_set_attributes {α : Type} (path : List Text) (mode gid : ℕ) (f : Bool → Script α) :
    (set_attributes path mode gid .done).bind f = set_attributes path mode gid f := by
  refine call_congr (fun changed => ?_)
  cases changed with
  | false => rfl
  | true =>
    refine call_congr (fun owned => ?_)
    cases owned with
    | false => rfl
    | true => rfl

theorem bind_mkdir_all {α β : Type} (f : α → Script β) (next : Bool → Script α)
    (paths : List (List Text)) :
    (mkdir_all next paths).bind f = mkdir_all (fun made => (next made).bind f) paths := by
  induction paths with
  | nil => rfl
  | cons path paths ih =>
    refine call_congr (fun there => ?_)
    cases there with
    | true => exact ih
    | false =>
      refine call_congr (fun made => ?_)
      cases made with
      | false => rfl
      | true => exact ih

/-- **The two cases of a call.** It makes the directory when `is_dir` denies it, gives up when
that fails, and otherwise goes on as if the directory had been there. -/
theorem atomic_write_eq (gids : String → ℕ) (file : File) (contents : Text) (suffix : Suffix) :
    atomic_write gids file contents suffix =
      .call (.is_dir (directory file)) (fun there =>
        if there then publish_into gids file contents suffix
        else (make_directory gids file).bind (fun made =>
          if made then publish_into gids file contents suffix else .done false)) := by
  refine call_congr (fun there => ?_)
  cases there with
  | true => rfl
  | false =>
    change mkdir_all _ _ = Prog.bind (make_directory gids file) _
    rw [make_directory, bind_mkdir_all]
    congr
    funext made
    cases made with
    | false => rfl
    | true =>
      refine Eq.trans ?_ (bind_set_attributes _ _ _ _).symm
      exact congrArg (set_attributes (directory file) 0o750 (gids file.group))
        (funext fun set => by cases set <;> rfl)

/-! ## What the others leave alone

The others are the processes of other users, and the guarantee of the branch towards everyone is
that no trusted directory is lost (`Keeps`). -/

section FileSystems

variable {fs fs' : FS Text Char}

/-- A trusted directory stays where it is, and trusted. -/
def Keeps (fs fs' : FS Text Char) : Prop :=
  ∀ path d, Reaches 0 superuser fs path d → Reaches 0 superuser fs' path d

theorem Keeps.refl (fs : FS Text Char) : Keeps fs fs := fun _ _ h => h

theorem keeps_of_frame (h : Frame 0 fs fs') : Keeps fs fs' := by
  rintro path d ⟨hway, n, hn, htrusted⟩
  exact ⟨h.way hway hn htrusted, h.trusted hn htrusted⟩

theorem acts_frame (h : Acts 0 fs fs') : Frame 0 fs fs' := by
  induction h with
  | refl => exact Frame.refl _
  | tail _ hlast ih => exact ih.trans hlast.frame

theorem acts_preordered : Preordered (Acts 0 (ν := Text) (β := Char)) :=
  ⟨fun _ => .refl, fun h h' => h.trans h'⟩

/-- Names may only be added to a directory, or be taken by someone else's file, by its owner. -/
theorem acts_inode (h : Acts 0 fs fs') {d : ℕ} {n : Inode Text Char} (hn : fs.inodes d = some n)
    (htrusted : n.Trusted 0) : fs'.inodes d = some n := by
  refine (h.inode_iff htrusted.toOwned (fun hkind => ?_)).mp hn
  rw [htrusted.directory] at hkind
  cases hkind

/-! ## A path whose end is missing -/

/-- There is a trusted directory at `above`, and `name` stands for nothing in it. -/
structure Missing (fs : FS Text Char) (above : List Text) (name : Text) (d : ℕ) : Prop where
  reaches : Reaches 0 superuser fs above d
  free : fs.entry superuser d name = .error .ENOENT

theorem Missing.acts {above : List Text} {name : Text} {d : ℕ} (h : Missing fs above name d)
    (hacts : Acts 0 fs fs') : Missing fs' above name d := by
  refine ⟨keeps_of_frame (acts_frame hacts) _ _ h.reaches, ?_⟩
  obtain ⟨-, n, hn, htrusted⟩ := h.reaches
  have hfree := h.free
  rw [FS.entry, hn] at hfree
  rw [FS.entry, acts_inode hacts hn htrusted]
  exact hfree

/-- What is below a missing name is missing, too. -/
theorem Missing.is_dir {above : List Text} {name : Text} {d : ℕ} (h : Missing fs above name d)
    (rest : List Text) : fs.is_dir superuser (above ++ name :: rest) = false := by
  have hwalk : fs.lookup superuser false MAXSYMLINKS d (name :: rest) = .error .ENOENT := by
    rw [show MAXSYMLINKS = 31 + 1 from rfl, FS.lookup, FS.walk, h.free]
  rw [FS.is_dir, h.reaches.resolve_append, hwalk]

/-- The directory is made, in the one above it. -/
theorem mkdir_made {above : List Text} {name : Text} {d : ℕ} (h : Missing fs above name d)
    (hmkdir : Changes superuser fs (.mkdir (above ++ [name]) 0o750) fs') :
    Frame 0 fs fs' ∧ ∃ i, Reaches 0 superuser fs' (above ++ [name]) i ∧
      ∀ nm, fs'.entry superuser i nm = .error .ENOENT := by
  cases hmkdir with
  | @mkdir path mode i dir gid nm hplace hnone hfree =>
    obtain ⟨path, hpath, hdir⟩ := hplace
    obtain ⟨rfl, hlast⟩ := List.append_inj' hpath rfl
    cases List.singleton_inj.mp hlast
    rw [h.reaches.resolve] at hdir
    cases hdir
    obtain ⟨hway, n, hn, htrusted⟩ := h.reaches
    obtain ⟨entries, hentries⟩ := n.content.directory_of_kind htrusted.directory
    have hempty := entries_none hn hentries h.free
    have hne : d ≠ i := by
      rintro rfl
      rw [hn] at hfree
      cases hfree
    obtain ⟨hd, hi, hothers, -⟩ := make_spec hn hentries hne
      (⟨0, gid, 0o750, .directory (fun _ => none)⟩) name
    -- the name was free, so no name of a directory is lost
    have hframe : Frame 0 fs (fs.make i ⟨0, gid, 0o750, .directory (fun _ => none)⟩ d name) := by
      intro j m inner hm hinner howned
      by_cases hjd : j = d
      · subst hjd
        rw [hn] at hm
        cases hm
        rw [hentries] at hinner
        cases hinner
        refine ⟨_, hd, fun nm k m' hk _ _ _ => ?_⟩
        rw [Function.update_of_ne]
        · exact hk
        · rintro rfl
          rw [hempty] at hk
          cases hk
      · have hji : j ≠ i := by
          rintro rfl
          rw [hm] at hfree
          cases hfree
        exact ⟨inner, by rw [hothers j hji hjd, hm, ← hinner], fun _ _ _ hk _ _ _ => hk⟩
    have hmode : 0o750 &&& 0o022 = 0 := rfl
    refine ⟨hframe, i, ⟨?_, _, hi, ⟨rfl, hmode⟩, rfl⟩, fun nm => ?_⟩
    · exact (hframe.way hway hn htrusted).append
        (Way.cons hd rfl ⟨htrusted.uid, htrusted.mode⟩ (superuser_grants _ 0)
          (Function.update_self _ _ _) (Way.nil i))
    · have hentry : FS.entry (fs.make i ⟨0, gid, 0o750, .directory (fun _ => none)⟩ d name) superuser
          i nm = .error .ENOENT := by
        rw [FS.entry, hi]
        rfl
      exact hentry

/-- Attributes of a trusted directory are set to those of one. -/
theorem put_keeps {d : ℕ} {n n' : Inode Text Char} (hn : fs.inodes d = some n)
    (hcontent : n'.content = n.content) (howned : n'.Owned 0) : Keeps fs (fs.put d n') := by
  have hself : (fs.put d n').inodes d = some n' := (put_inodes ..).trans (if_pos rfl)
  have hother : ∀ j, j ≠ d → (fs.put d n').inodes j = fs.inodes j :=
    fun j hj => (put_inodes ..).trans (if_neg hj)
  rintro path b ⟨hway, m, hm, htrusted⟩
  constructor
  · generalize root = a at hway
    induction hway with
    | nil a => exact Way.nil a
    | @cons a i j k entries name rest hk hentries hkowned hsearch hname hrest ih =>
      by_cases had : a = d
      · subst had
        rw [hn] at hk
        cases hk
        exact Way.cons hself (hcontent.trans hentries) howned (superuser_grants _ 0) hname (ih hm)
      · exact Way.cons ((hother a had).trans hk) hentries hkowned hsearch hname (ih hm)
  · by_cases hbd : b = d
    · subst hbd
      rw [hn] at hm
      cases hm
      exact ⟨n', hself, howned, by rw [hcontent]; exact htrusted.directory⟩
    · exact ⟨m, (hother b hbd).trans hm, htrusted⟩

/-- The directory of a file, as the package wants it. -/
def Made (gids : String → ℕ) (file : File) (fs : FS Text Char) : Prop :=
  ∃ d entries, Way 0 superuser fs root (directory file) d ∧
    fs.inodes d = some ⟨0, gids file.group, 0o750, .directory entries⟩

theorem Made.acts {gids : String → ℕ} {file : File} (h : Made gids file fs) (hacts : Acts 0 fs fs') :
    Made gids file fs' := by
  obtain ⟨d, entries, hway, hd⟩ := h
  have hmode : 0o750 &&& 0o022 = 0 := rfl
  exact ⟨d, entries, hacts.way_iff.mp hway, acts_inode hacts hd ⟨⟨rfl, hmode⟩, rfl⟩⟩

end FileSystems

/-! ## The branch beside processes of other users -/

section Calls

variable {gids : String → ℕ} {file : File} {fs : FS Text Char} {post : Bool → FS Text Char → Prop}

/-- The triple of a script that root runs, with all that other users may do in between. -/
abbrev RootMeets (post : Bool → FS Text Char → Prop) (p : Script Bool) (fs : FS Text Char) : Prop :=
  Meets (fun call fs => Effect superuser fs call) (Acts 0) Keeps post p fs

/-- A script that says it has failed. -/
theorem gave_up (fs : FS Text Char) :
    RootMeets (fun made fs => made = true → Made gids file fs) (.done false) fs :=
  fun _ _ h => (by cases h)

theorem is_dir_meets {path : List Text} {there : Bool} {next : Bool → Script Bool}
    (hdir : ∀ fs', Acts 0 fs fs' → fs'.is_dir superuser path = there)
    (hnext : ∀ fs', Acts 0 fs fs' → RootMeets post (next there) fs') :
    RootMeets post (.call (.is_dir path) next) fs := by
  intro fs₁ hacts x fs₂ hcall
  cases hcall
  rw [hdir fs₁ hacts]
  exact ⟨Keeps.refl _, hnext fs₁ hacts⟩

theorem change_meets {change : Change Text} {next : Bool → Script Bool}
    (hfalse : ∀ fs', RootMeets post (next false) fs')
    (htrue : ∀ fs₁ fs₂, Acts 0 fs fs₁ → Changes superuser fs₁ change fs₂ →
      Keeps fs₁ fs₂ ∧ RootMeets post (next true) fs₂) :
    RootMeets post (.call (.change change) next) fs := by
  intro fs₁ hacts x fs₂ hcall
  cases x with
  | false =>
    rw [same_of_effect hcall]
    exact ⟨Keeps.refl _, hfalse fs₁⟩
  | true => exact htrue fs₁ fs₂ hacts (changes_of_effect hcall)

/-- `above` with the names of a list one after the other. -/
def below (above : List Text) : List Text → List (List Text)
  | [] => []
  | name :: rest => (above ++ [name]) :: below (above ++ [name]) rest

theorem inits_append_below (above rest : List Text) :
    (above ++ rest).inits = above.inits ++ below above rest := by
  induction rest generalizing above with
  | nil => rw [List.append_nil, below, List.append_nil]
  | cons name rest ih =>
    have hinits : (above ++ [name]).inits = above.inits ++ [above ++ [name]] := by
      rw [List.inits_append]
      rfl
    have happend : above ++ name :: rest = (above ++ [name]) ++ rest := by
      rw [List.append_assoc, List.singleton_append]
    rw [happend, ih, hinits, below, List.append_assoc, List.singleton_append]

/-- The missing directories, from the root on. Each is made in one that is trusted by then. -/
theorem mkdir_below_meets (next : Bool → Script Bool) {path : List Text}
    (hfalse : ∀ fs, RootMeets post (next false) fs)
    (htrue : ∀ fs d, Reaches 0 superuser fs path d → RootMeets post (next true) fs) :
    ∀ (rest above : List Text) (d : ℕ) (fs : FS Text Char), path = above ++ rest →
      Reaches 0 superuser fs above d →
      (∀ name ∈ rest.head?, fs.entry superuser d name = .error .ENOENT) →
      RootMeets post (mkdir_all next (below above rest)) fs := by
  intro rest
  induction rest with
  | nil =>
    intro above d fs hpath hreaches _
    rw [List.append_nil] at hpath
    exact htrue fs d (hpath ▸ hreaches)
  | cons name rest ih =>
    intro above d fs hpath hreaches hfree
    have hmissing : Missing fs above name d := ⟨hreaches, hfree name rfl⟩
    refine is_dir_meets (fun fs' hacts => (hmissing.acts hacts).is_dir []) (fun fs₁ hacts₁ => ?_)
    refine change_meets hfalse (fun fs₂ fs₃ hacts₂ hmkdir => ?_)
    obtain ⟨hframe, i, hmade, hempty⟩ := mkdir_made (hmissing.acts (hacts₁.trans hacts₂)) hmkdir
    refine ⟨keeps_of_frame hframe, ih (above ++ [name]) i fs₃ ?_ hmade (fun nm _ => hempty nm)⟩
    rw [hpath, List.append_assoc, List.singleton_append]

/-- What is there is passed over. -/
theorem mkdir_there_meets {next : Bool → Script Bool} {paths : List (List Text)}
    (hnext : ∀ fs', Acts 0 fs fs' → RootMeets post (mkdir_all next paths) fs') :
    ∀ there : List (List Text), (∀ path ∈ there, ∃ d, Reaches 0 superuser fs path d) →
      RootMeets post (mkdir_all next (there ++ paths)) fs := by
  intro there
  induction there generalizing fs with
  | nil => exact fun _ => hnext fs .refl
  | cons path there ih =>
    intro hreaches
    have hkept : ∀ {fs'}, Acts 0 fs fs' → ∀ path' ∈ path :: there,
        ∃ d, Reaches 0 superuser fs' path' d := by
      intro fs' hacts path' hmem
      obtain ⟨d, hd⟩ := hreaches path' hmem
      exact ⟨d, keeps_of_frame (acts_frame hacts) _ _ hd⟩
    refine @is_dir_meets _ _ _ true _ (fun fs' hacts => ?_) (fun fs' hacts => ?_)
    · obtain ⟨d, hd⟩ := hkept hacts path List.mem_cons_self
      exact hd.is_dir
    · exact ih (fun fs'' hacts' => hnext fs'' (hacts.trans hacts'))
        (fun path' hmem => hkept hacts path' (List.mem_cons_of_mem _ hmem))

/-- The attributes of the directory, one after the other. -/
theorem attributes_meets {d : ℕ} {n : Inode Text Char} (hway : Way 0 superuser fs root (directory file) d)
    (hn : fs.inodes d = some n) (htrusted : n.Trusted 0) :
    RootMeets (fun made fs => made = true → Made gids file fs)
      (set_attributes (directory file) 0o750 (gids file.group) .done) fs := by
  -- what one of the three calls does to the directory
  have hset : ∀ {change : Change Text} {f : Inode Text Char → Inode Text Char} {next : Bool → Script Bool}
      {fs : FS Text Char} {n : Inode Text Char}, Sets change (directory file) f →
      (f n).content = n.content → (f n).Owned 0 → Way 0 superuser fs root (directory file) d →
      fs.inodes d = some n → n.Trusted 0 →
      (∀ fs', RootMeets (fun made fs => made = true → Made gids file fs) (next false) fs') →
      (∀ fs', Way 0 superuser fs' root (directory file) d → fs'.inodes d = some (f n) →
        RootMeets (fun made fs => made = true → Made gids file fs) (next true) fs') →
      RootMeets (fun made fs => made = true → Made gids file fs) (.call (.change change) next) fs := by
    intro change f next fs n hsets hcontent howned hway hn htrusted hfalse htrue
    refine change_meets hfalse (fun fs₁ fs₂ hacts hchange => ?_)
    have hreaches : Reaches 0 superuser fs₁ (directory file) d :=
      keeps_of_frame (acts_frame hacts) _ _ ⟨hway, n, hn, htrusted⟩
    obtain ⟨i, m, hi, hm, rfl⟩ := hsets.2 fs₁ fs₂ hchange
    rw [hreaches.resolve] at hi
    cases hi
    have hkept := acts_inode hacts hn htrusted
    rw [hkept] at hm
    cases hm
    have hkeeps := put_keeps hkept hcontent howned
    exact ⟨hkeeps, htrue _ (hkeeps _ _ hreaches).1 ((put_inodes ..).trans (if_pos rfl))⟩
  obtain ⟨entries, hentries⟩ := n.content.directory_of_kind htrusted.directory
  have hmode : 0o750 &&& 0o022 = 0 := rfl
  refine hset (sets_chmod _ _) rfl ⟨htrusted.uid, hmode⟩ hway hn htrusted (fun _ => gave_up _)
    (fun fs₁ hway₁ hn₁ => ?_)
  refine hset (sets_chown _ _) rfl ⟨rfl, hmode⟩ hway₁ hn₁ ⟨⟨htrusted.uid, hmode⟩, htrusted.directory⟩
    (fun _ => gave_up _) (fun fs₂ hway₂ hn₂ => ?_)
  refine hset (sets_chgrp _ _) rfl ⟨rfl, hmode⟩ hway₂ hn₂ ⟨⟨rfl, hmode⟩, htrusted.directory⟩
    (fun _ => gave_up _) (fun fs₃ hway₃ hn₃ => ?_)
  refine fun fs₄ hacts _ => Made.acts ⟨d, entries, hway₃, ?_⟩ hacts
  rw [hn₃, hentries]

/-- **A missing directory is made as the package wants it.** Let the path of the directory lead
through trusted directories to the first name that is missing, and let processes of other users do
what they can between any two calls. No trusted directory is lost at any point, and if the branch
answers that all went well, the directory is there with root as its owner, mode 0750 and the group
of the package, at the end of a way through directories of root. -/
theorem directory_made {above rest : List Text} {name : Text} {d : ℕ}
    (hpath : directory file = above ++ name :: rest) (h : Missing fs above name d) :
    RootMeets (fun made fs => made = true → Made gids file fs) (make_directory gids file) fs := by
  rw [make_directory, hpath, inits_append_below, ← hpath]
  refine mkdir_there_meets (fun fs₁ hacts => ?_) _ (fun path hmem => ?_)
  · have hmissing := h.acts hacts
    refine mkdir_below_meets _ (fun fs₂ => ?_) (fun fs₂ b hb => ?_)
      (name :: rest) above d fs₁ hpath hmissing.reaches (fun nm hnm => ?_)
    · exact gave_up fs₂
    · obtain ⟨hway, n, hn, htrusted⟩ := hb
      exact attributes_meets hway hn htrusted
    · cases hnm
      exact hmissing.free
  · obtain ⟨rest', rfl⟩ := (List.mem_inits _ _).mp hmem
    cases rest' with
    | nil => exact ⟨d, by rw [← List.append_nil path]; exact h.reaches⟩
    | cons nm rest' => exact reaches_of_way h.reaches.1

/-- The loop over the directories finds nothing wrong with those of a directory that was made. -/
theorem check_made_meets {next : Script Bool} (hnext : ∀ fs, Made gids file fs → RootMeets post next fs) :
    ∀ (paths : List (List Text)), (∀ path ∈ paths, path <+: directory file) → ∀ fs, Made gids file fs →
      RootMeets post (check_directories next paths) fs := by
  intro paths
  induction paths with
  | nil => exact fun _ fs hmade => hnext fs hmade
  | cons path paths ih =>
    intro hbelow fs hmade fs₁ hacts x fs₂ hcall
    have hmade₁ := hmade.acts hacts
    have hreaches : ∀ path, path <+: directory file → ∃ b, Reaches 0 superuser fs₁ path b := by
      rintro path ⟨rest, hrest⟩
      obtain ⟨d, entries, hway, hd⟩ := hmade₁
      have hmode : 0o750 &&& 0o022 = 0 := rfl
      rw [← hrest] at hway
      cases rest with
      | nil => exact ⟨d, by rwa [List.append_nil] at hway, _, hd, ⟨rfl, hmode⟩, rfl⟩
      | cons nm rest => exact reaches_of_way hway
    -- the directory above has passed as well, so the path is looked up without links
    have hready : Ready 0 superuser fs₁ path := by
      rcases List.eq_nil_or_concat path with rfl | ⟨above, nm, rfl⟩
      · exact .inl rfl
      · rw [List.concat_eq_append] at hbelow ⊢
        obtain ⟨b, hb⟩ := hreaches above
          ((List.prefix_append above [nm]).trans (hbelow _ List.mem_cons_self))
        exact .inr ⟨above, nm, b, rfl, hb⟩
    obtain ⟨info, hinfo, hsafe⟩ :=
      (lstat_safe_iff hready).mpr (hreaches path (hbelow path List.mem_cons_self))
    obtain rfl : fs₂ = fs₁ := effect_reading (show IsReading (.lstat path : Call Text Char) from trivial) hcall
    have hx : x = .ok info := by
      rw [← hinfo]
      cases hcall
      rfl
    rw [hx]
    dsimp only
    rw [if_pos hsafe]
    exact ⟨Keeps.refl _, ih (fun path' hmem => hbelow path' (List.mem_cons_of_mem _ hmem)) _ hmade₁⟩

/-- **A call whose directory is missing.** Whatever holds of a call that gives up, and of one that
writes its file into a directory as the package wants it, holds of a call that finds the directory
missing: the branch leads to one of the two, and the check of the directories refuses nothing that
the branch has made. -/
theorem missing_directory_meets {contents : Text} {suffix : Suffix} {above rest : List Text} {name : Text}
    {d : ℕ} (hpath : directory file = above ++ name :: rest) (h : Missing fs above name d)
    (hfail : ∀ fs', post false fs')
    (hwrite : ∀ fs', Made gids file fs' → RootMeets post
      (write_file (names file) (tmp file suffix) contents file.mode (gids file.group)) fs') :
    RootMeets post (atomic_write gids file contents suffix) fs := by
  rw [atomic_write_eq]
  refine @is_dir_meets _ _ _ false _ (fun fs' hacts => ?_) (fun fs' hacts => ?_)
  · rw [hpath]
    exact (h.acts hacts).is_dir rest
  · refine Meets.bind acts_preordered ((directory_made hpath (h.acts hacts)).mono ?_)
    intro made fs₁ hmade
    cases made with
    | false => exact fun fs₂ _ => hfail fs₂
    | true =>
      refine check_made_meets hwrite _ (fun path hmem => ?_) fs₁ (hmade rfl)
      exact (List.mem_inits _ _).mp (List.mem_reverse.mp hmem)

end Calls

end F2bguard.Publication
