/-
A file system with owners and permission bits.

Files are inodes, and directories give them names. A path is followed through symbolic links, except
for its last name. The system calls below take the credentials of their caller.

`Act` is what processes of other users may do, and more: they fill the directories and files they
can write to at will. They do not reach what an owner keeps to itself: an inode without write
permission for others is the same before and after, and no inode becomes the owner's
(`Acts.inode_iff`). So a way through directories of that kind leads to the same inode whatever
these processes do (`Acts.way_iff`), and it is the way the kernel takes (`resolve_of_way`).
-/
import Mathlib.Tactic

set_option autoImplicit false

namespace F2bguard.FileSystem

/-! ## Inodes

What a file is, apart from its names. Permissions are the nine bits of the mode, with the class of
the caller deciding which three count, and `root` is refused nothing. -/

inductive Content (ν β : Type)
  | directory (entries : ν → Option ℕ)
  | regular (data : List β)
  | symlink (absolute : Bool) (target : List ν)
  /-- a device, a socket, a FIFO -/
  | special

/-- `mode` has the permission bits. -/
structure Inode (ν β : Type) where
  uid : ℕ
  gid : ℕ
  mode : ℕ
  content : Content ν β

/-- The inodes by their numbers, and those that a process of another user has open for writing. The
number of a file that was deleted is not used again. -/
structure FS (ν β : Type) where
  inodes : ℕ → Option (Inode ν β)
  held : ℕ → Bool

/-- The number of `/`. -/
def root : ℕ := 2

inductive Kind
  | directory
  | regular
  | symlink
  | special
  deriving DecidableEq, Repr

def Content.kind {ν β : Type} : Content ν β → Kind
  | .directory _ => .directory
  | .regular _ => .regular
  | .symlink _ _ => .symlink
  | .special => .special

def Content.size {ν β : Type} : Content ν β → ℕ
  | .regular data => data.length
  | _ => 0

structure Stat where
  kind : Kind
  uid : ℕ
  gid : ℕ
  mode : ℕ
  size : ℕ
  deriving DecidableEq, Repr

inductive Errno
  | ENOENT
  | EACCES
  | ENOTDIR
  | ELOOP
  | EEXIST
  | EISDIR
  | EIO
  deriving DecidableEq, Repr

/-- The user and the groups of a process. -/
structure Cred where
  uid : ℕ
  gids : List ℕ

section Inodes

variable {ν β : Type}

def Inode.stat (n : Inode ν β) : Stat := ⟨n.content.kind, n.uid, n.gid, n.mode, n.content.size⟩

/-- The class of the caller decides which bits count: `bit` is 2 for reading, 1 for writing and 0
for searching a directory. -/
def Inode.grants (n : Inode ν β) (c : Cred) (bit : ℕ) : Bool :=
  c.uid = 0 || (if n.uid = c.uid then n.mode.testBit (bit + 6)
    else if n.gid ∈ c.gids then n.mode.testBit (bit + 3)
    else n.mode.testBit bit)

/-- Only the owner may write. -/
structure Inode.Owned (owner : ℕ) (n : Inode ν β) : Prop where
  uid : n.uid = owner
  mode : n.mode &&& 0o022 = 0

theorem Inode.Owned.not_writable {owner : ℕ} {n : Inode ν β} (h : n.Owned owner) {c : Cred}
    (hroot : c.uid ≠ 0) (howner : c.uid ≠ owner) : n.grants c 1 = false := by
  have hbit : ∀ k, k = 4 ∨ k = 1 → n.mode.testBit k = false := by
    intro k hk
    have hand : (n.mode &&& 0o022).testBit k = false := by rw [h.mode, Nat.zero_testBit]
    have hmask : Nat.testBit 0o022 k = true := by rcases hk with rfl | rfl <;> rfl
    rw [Nat.testBit_and, hmask, Bool.and_true] at hand
    exact hand
  rw [Inode.grants, decide_eq_false hroot, Bool.false_or,
    if_neg (fun heq => howner (heq.symm.trans h.uid)), hbit (1 + 3) (Or.inl rfl), hbit 1 (Or.inr rfl),
    ite_self]

/-- A directory in which only the owner makes names. -/
structure Inode.Trusted (owner : ℕ) (n : Inode ν β) : Prop extends n.Owned owner where
  directory : n.content.kind = .directory

end Inodes

/-! ## Paths

A path is looked up anew in every call, name by name, and each directory on the way may be another
one by then. Symbolic links start the lookup again at their target. A `Way` avoids all that: its
directories belong to the owner, are written by no one else, and none of its names but the last
stands for a link. -/

section Paths

variable {ν β : Type}

/-- A name in a directory. -/
def FS.entry (fs : FS ν β) (c : Cred) (dir : ℕ) (name : ν) : Except Errno ℕ :=
  match fs.inodes dir with
  | none => .error .ENOENT
  | some n => match n.content with
    | .directory entries =>
        if n.grants c 0 then (entries name).elim (.error .ENOENT) .ok else .error .EACCES
    | _ => .error .ENOTDIR

/-- The kernel's way from a directory. What follows a symbolic link is left to `follow`; the last
name is not followed with `nofollow`. -/
def FS.walk (fs : FS ν β) (c : Cred) (nofollow : Bool) (follow : ℕ → List ν → Except Errno ℕ) :
    ℕ → List ν → Except Errno ℕ
  | dir, [] => .ok dir
  | dir, name :: rest =>
    match fs.entry c dir name with
    | .error e => .error e
    | .ok i => match (fs.inodes i).map Inode.content with
      | some (.symlink absolute target) =>
          if nofollow && rest.isEmpty then .ok i
          else follow (if absolute then root else dir) (target ++ rest)
      | _ => fs.walk c nofollow follow i rest

/-- With so many symbolic links at most. -/
def FS.lookup (fs : FS ν β) (c : Cred) (nofollow : Bool) : ℕ → ℕ → List ν → Except Errno ℕ
  | 0 => fs.walk c nofollow (fun _ _ => .error .ELOOP)
  | links + 1 => fs.walk c nofollow (fs.lookup c nofollow links)

def MAXSYMLINKS : ℕ := 32

/-- An absolute path, by its names. -/
def FS.resolve (fs : FS ν β) (c : Cred) (nofollow : Bool) (names : List ν) : Except Errno ℕ :=
  fs.lookup c nofollow MAXSYMLINKS root names

/-- The way through directories that only the owner writes and the caller may search. -/
inductive Way (owner : ℕ) (c : Cred) (fs : FS ν β) : ℕ → List ν → ℕ → Prop
  | nil (a : ℕ) : Way owner c fs a [] a
  | cons {a i j : ℕ} {n : Inode ν β} {entries : ν → Option ℕ} {name : ν} {rest : List ν}
      (hn : fs.inodes a = some n) (hentries : n.content = .directory entries) (howned : n.Owned owner)
      (hsearch : n.grants c 0 = true) (hname : entries name = some i) (hrest : Way owner c fs i rest j) :
      Way owner c fs a (name :: rest) j

variable {owner : ℕ} {c : Cred} {fs : FS ν β}

theorem Way.append {a b d : ℕ} {names rest : List ν} (h : Way owner c fs a names b)
    (hrest : Way owner c fs b rest d) : Way owner c fs a (names ++ rest) d := by
  induction h with
  | nil a => exact hrest
  | cons hn hentries howned hsearch hname _ ih =>
    exact Way.cons hn hentries howned hsearch hname (ih hrest)

theorem Way.of_append {names rest : List ν} {d : ℕ} : ∀ {a : ℕ}, Way owner c fs a (names ++ rest) d →
    ∃ b, Way owner c fs a names b ∧ Way owner c fs b rest d := by
  induction names with
  | nil => exact fun h => ⟨_, Way.nil _, h⟩
  | cons name names ih =>
    intro a h
    cases h with
    | cons hn hentries howned hsearch hname hrest =>
      obtain ⟨b, hnames, hrest⟩ := ih hrest
      exact ⟨b, Way.cons hn hentries howned hsearch hname hnames, hrest⟩

/-- Root may search every directory. -/
theorem Way.of_root {a b : ℕ} {names : List ν} (h : Way owner c fs a names b) {c' : Cred}
    (hroot : c'.uid = 0) : Way owner c' fs a names b := by
  induction h with
  | nil a => exact Way.nil a
  | cons hn hentries howned hsearch hname _ ih =>
    exact Way.cons hn hentries howned (by rw [Inode.grants, decide_eq_true hroot, Bool.true_or]) hname ih

/-- There is one such way at most. -/
theorem Way.unique {a b : ℕ} {names : List ν} (h : Way owner c fs a names b) :
    ∀ {b' : ℕ}, Way owner c fs a names b' → b' = b := by
  induction h with
  | nil a =>
    intro b' h'
    cases h'
    rfl
  | cons hn hentries howned hsearch hname _ ih =>
    intro b' h'
    cases h' with
    | cons hn' hentries' howned' hsearch' hname' hrest' =>
      rw [hn] at hn'
      cases hn'
      rw [hentries] at hentries'
      cases hentries'
      rw [hname] at hname'
      cases hname'
      exact ih hrest'

theorem entry_eq_ok {dir : ℕ} {name : ν} {i : ℕ} : fs.entry c dir name = .ok i ↔
    ∃ n entries, fs.inodes dir = some n ∧ n.content = .directory entries ∧ n.grants c 0 = true ∧
      entries name = some i := by
  unfold FS.entry
  cases hn : fs.inodes dir with
  | none => simp
  | some n =>
    dsimp only
    cases hcontent : n.content with
    | directory entries =>
      dsimp only
      cases hsearch : n.grants c 0 with
      | false => simp [hcontent, hsearch]
      | true => cases hname : entries name <;> simp [hcontent, hsearch, hname]
    | _ => simp [hcontent]

/-- The kernel goes this way. -/
theorem walk_of_way {nofollow : Bool} {follow : ℕ → List ν → Except Errno ℕ} {a d : ℕ}
    {names : List ν} (h : Way owner c fs a names d) {n : Inode ν β} (hd : fs.inodes d = some n)
    (hlink : n.content.kind ≠ .symlink) (rest : List ν) :
    fs.walk c nofollow follow a (names ++ rest) = fs.walk c nofollow follow d rest := by
  induction h with
  | nil a => rfl
  | @cons a i j m entries name names hn hentries howned hsearch hname hway ih =>
    have hentry : fs.entry c a name = .ok i := entry_eq_ok.mpr ⟨m, entries, hn, hentries, hsearch, hname⟩
    -- the way goes on from a directory, or it ends here
    have hnext : ∃ n', fs.inodes i = some n' ∧ n'.content.kind ≠ .symlink := by
      cases hway with
      | nil => exact ⟨n, hd, hlink⟩
      | cons hn' hentries' _ _ _ _ => exact ⟨_, hn', by rw [hentries']; exact Kind.noConfusion⟩
    obtain ⟨n', hn', hlink'⟩ := hnext
    rw [List.cons_append, FS.walk, hentry]
    dsimp only
    rw [hn', Option.map_some]
    cases hcontent : n'.content with
    | symlink absolute target => exact absurd (by rw [hcontent]; rfl) hlink'
    | _ => exact ih hd

theorem lookup_of_way {nofollow : Bool} {a d : ℕ} {names : List ν} (h : Way owner c fs a names d)
    {n : Inode ν β} (hd : fs.inodes d = some n) (hlink : n.content.kind ≠ .symlink) (rest : List ν)
    (links : ℕ) :
    fs.lookup c nofollow links a (names ++ rest) = fs.lookup c nofollow links d rest := by
  cases links with
  | zero => exact walk_of_way h hd hlink rest
  | succ links => exact walk_of_way h hd hlink rest

/-- The name of a file, after a way to its directory. -/
theorem resolve_of_way {a : ℕ} {names : List ν} (h : Way owner c fs root names a) {n : Inode ν β}
    (ha : fs.inodes a = some n) (hlink : n.content.kind ≠ .symlink) (name : ν) :
    fs.resolve c true (names ++ [name]) = fs.entry c a name := by
  have hlast : ∀ follow, fs.walk c true follow a [name] = fs.entry c a name := by
    intro follow
    rw [FS.walk]
    cases fs.entry c a name with
    | error e => rfl
    | ok i =>
      dsimp only
      cases (fs.inodes i).map Inode.content with
      | none => rfl
      | some content => cases content <;> rfl
  exact (lookup_of_way h ha hlink [name] MAXSYMLINKS).trans (hlast _)

end Paths

/-! ## Other users

One act is one change, with any credentials that are neither those of root nor those of the owner.
An owner keeps its inodes to itself but for one hole: who has opened a file for writing writes to
it later as well, whatever its mode is then. `held` says that somebody has. -/

section Others

variable {ν β : Type}

def FS.put (fs : FS ν β) (i : ℕ) (n : Inode ν β) : FS ν β :=
  { fs with inodes := Function.update fs.inodes i (some n) }

def FS.hold (fs : FS ν β) (i : ℕ) (held : Bool) : FS ν β :=
  { fs with held := Function.update fs.held i held }

/-- What a process of another user than root and the owner may do. What it writes to a directory or
a file that it can write is not restricted. -/
inductive Act (owner : ℕ) (fs : FS ν β) : FS ν β → Prop
  | create {c : Cred} {i : ℕ} {n : Inode ν β} (held : Bool) (hroot : c.uid ≠ 0) (howner : c.uid ≠ owner)
      (hfree : fs.inodes i = none) (huid : n.uid = c.uid) : Act owner fs ((fs.put i n).hold i held)
  | open_write {c : Cred} {i : ℕ} {n : Inode ν β} (hroot : c.uid ≠ 0) (howner : c.uid ≠ owner)
      (hn : fs.inodes i = some n) (hkind : n.content.kind = .regular) (hwrite : n.grants c 1 = true) :
      Act owner fs (fs.hold i true)
  | close (i : ℕ) : Act owner fs (fs.hold i false)
  | edit {c : Cred} {i : ℕ} {n : Inode ν β} (content : Content ν β) (hroot : c.uid ≠ 0)
      (howner : c.uid ≠ owner) (hn : fs.inodes i = some n) (hwrite : n.grants c 1 = true) :
      Act owner fs (fs.put i { n with content })
  /-- through a file that was opened before -/
  | write {i : ℕ} {n : Inode ν β} (data : List β) (hn : fs.inodes i = some n)
      (hkind : n.content.kind = .regular) (hheld : fs.held i = true) :
      Act owner fs (fs.put i { n with content := .regular data })
  | chattr {c : Cred} {i : ℕ} {n : Inode ν β} (gid mode : ℕ) (hroot : c.uid ≠ 0) (howner : c.uid ≠ owner)
      (hn : fs.inodes i = some n) (huid : n.uid = c.uid) : Act owner fs (fs.put i { n with gid, mode })

/-- No process of another user can write to it. -/
structure Sealed (owner : ℕ) (fs : FS ν β) (i : ℕ) (n : Inode ν β) : Prop extends n.Owned owner where
  inode : fs.inodes i = some n
  not_held : n.content.kind = .regular → fs.held i = false

theorem put_inodes (fs : FS ν β) (i j : ℕ) (n : Inode ν β) :
    (fs.put i n).inodes j = if j = i then some n else fs.inodes j := Function.update_apply _ _ _ _

theorem hold_held (fs : FS ν β) (i j : ℕ) (held : Bool) :
    (fs.hold i held).held j = if j = i then held else fs.held j := Function.update_apply _ _ _ _

variable {owner : ℕ} {fs fs' : FS ν β}

/-- What is sealed stays so. -/
theorem Act.sealed (h : Act owner fs fs') {i : ℕ} {n : Inode ν β} (hs : Sealed owner fs i n) :
    Sealed owner fs' i n := by
  have hput : ∀ {j : ℕ} {m : Inode ν β}, j ≠ i → Sealed owner (fs.put j m) i n := fun hne =>
    ⟨hs.toOwned, (put_inodes fs _ i _).trans (by rw [if_neg hne.symm]; exact hs.inode), hs.not_held⟩
  have hhold : ∀ {fs : FS ν β} {j : ℕ} {held : Bool}, Sealed owner fs i n →
      (j = i → n.content.kind = .regular → held = false) → Sealed owner (fs.hold j held) i n := by
    intro fs j held hs hheld
    refine ⟨hs.toOwned, hs.inode, fun hkind => ?_⟩
    rw [hold_held]
    split
    · rename_i heq
      exact hheld heq.symm hkind
    · exact hs.not_held hkind
  cases h with
  | @create c j m held hroot howner hfree huid =>
    have hne : j ≠ i := by
      rintro rfl
      rw [hs.inode] at hfree
      cases hfree
    exact hhold (hput hne) (fun heq => absurd heq hne)
  | @open_write c j m hroot howner hn hkind hwrite =>
    refine hhold hs (fun heq _ => ?_)
    subst heq
    rw [hs.inode] at hn
    cases hn
    rw [hs.toOwned.not_writable hroot howner] at hwrite
    cases hwrite
  | close j => exact hhold hs (fun _ _ => rfl)
  | @edit c j m content hroot howner hn hwrite =>
    refine hput ?_
    rintro rfl
    rw [hs.inode] at hn
    cases hn
    rw [hs.toOwned.not_writable hroot howner] at hwrite
    cases hwrite
  | @write j m data hn hkind hheld =>
    refine hput ?_
    rintro rfl
    rw [hs.inode] at hn
    cases hn
    rw [hs.not_held hkind] at hheld
    cases hheld
  | @chattr c j m gid mode hroot howner hn huid =>
    refine hput ?_
    rintro rfl
    rw [hs.inode] at hn
    cases hn
    exact absurd (huid.symm.trans hs.uid) howner

/-- Nothing becomes the owner's. -/
theorem Act.owned_back (h : Act owner fs fs') {i : ℕ} {n' : Inode ν β} (hn' : fs'.inodes i = some n')
    (howned : n'.Owned owner) :
    ∃ n, fs.inodes i = some n ∧ n.Owned owner ∧ n.content.kind = n'.content.kind := by
  have hput : ∀ {j : ℕ} {m : Inode ν β}, (fs.put j m).inodes i = some n' →
      (j = i ∧ m = n') ∨ (j ≠ i ∧ fs.inodes i = some n') := by
    intro j m hm
    rw [put_inodes] at hm
    split at hm
    · rename_i heq
      exact .inl ⟨heq.symm, Option.some.inj hm⟩
    · rename_i hne
      exact .inr ⟨fun heq => hne heq.symm, hm⟩
  cases h with
  | @create c j m held hroot howner hfree huid =>
    rcases hput hn' with ⟨rfl, rfl⟩ | ⟨-, hn⟩
    · exact absurd (huid.symm.trans howned.uid) howner
    · exact ⟨n', hn, howned, rfl⟩
  | open_write => exact ⟨n', hn', howned, rfl⟩
  | close => exact ⟨n', hn', howned, rfl⟩
  | @edit c j m content hroot howner hn hwrite =>
    rcases hput hn' with ⟨rfl, rfl⟩ | ⟨-, hn⟩
    · have hm : m.Owned owner := ⟨howned.uid, howned.mode⟩
      rw [hm.not_writable hroot howner] at hwrite
      cases hwrite
    · exact ⟨n', hn, howned, rfl⟩
  | @write j m data hn hkind hheld =>
    rcases hput hn' with ⟨rfl, rfl⟩ | ⟨-, hn⟩
    · exact ⟨m, hn, ⟨howned.uid, howned.mode⟩, hkind⟩
    · exact ⟨n', hn, howned, rfl⟩
  | @chattr c j m gid mode hroot howner hn huid =>
    rcases hput hn' with ⟨rfl, rfl⟩ | ⟨-, hn⟩
    · exact absurd (huid.symm.trans howned.uid) howner
    · exact ⟨n', hn, howned, rfl⟩

/-- Any number of acts, by any of the others. -/
def Acts (owner : ℕ) : FS ν β → FS ν β → Prop := Relation.ReflTransGen (Act owner)

theorem Acts.sealed (h : Acts owner fs fs') {i : ℕ} {n : Inode ν β} (hs : Sealed owner fs i n) :
    Sealed owner fs' i n := by
  induction h with
  | refl => exact hs
  | tail _ hlast ih => exact hlast.sealed ih

theorem Acts.owned_back (h : Acts owner fs fs') {i : ℕ} {n' : Inode ν β}
    (hn' : fs'.inodes i = some n') (howned : n'.Owned owner) :
    ∃ n, fs.inodes i = some n ∧ n.Owned owner ∧ n.content.kind = n'.content.kind := by
  induction h generalizing n' with
  | refl => exact ⟨n', hn', howned, rfl⟩
  | tail _ hlast ih =>
    obtain ⟨m, hm, hmowned, hmkind⟩ := hlast.owned_back hn' howned
    obtain ⟨n, hn, hnowned, hnkind⟩ := ih hm hmowned
    exact ⟨n, hn, hnowned, hnkind.trans hmkind⟩

/-- What only the owner can write to is the same before and after, unless it is a file that another
process had open for writing. -/
theorem Acts.inode_iff (h : Acts owner fs fs') {i : ℕ} {n : Inode ν β} (howned : n.Owned owner)
    (hheld : n.content.kind = .regular → fs.held i = false) :
    fs.inodes i = some n ↔ fs'.inodes i = some n := by
  constructor
  · exact fun hn => (h.sealed ⟨howned, hn, hheld⟩).inode
  · intro hn'
    obtain ⟨m, hm, hmowned, hkind⟩ := h.owned_back hn' howned
    have hm' := (h.sealed ⟨hmowned, hm, fun hregular => hheld (hkind.symm.trans hregular)⟩).inode
    rw [hn'] at hm'
    cases hm'
    exact hm

theorem Acts.way_iff (h : Acts owner fs fs') {c : Cred} {a b : ℕ} {names : List ν} :
    Way owner c fs a names b ↔ Way owner c fs' a names b := by
  have hdirectory : ∀ {i : ℕ} {n : Inode ν β} {entries : ν → Option ℕ},
      n.content = .directory entries → n.Owned owner → (fs.inodes i = some n ↔ fs'.inodes i = some n) := by
    intro i n entries hentries howned
    refine h.inode_iff howned (fun hkind => ?_)
    rw [hentries] at hkind
    cases hkind
  constructor
  · intro hway
    induction hway with
    | nil a => exact Way.nil a
    | cons hn hentries howned hsearch hname _ ih =>
      exact Way.cons ((hdirectory hentries howned).mp hn) hentries howned hsearch hname ih
  · intro hway
    induction hway with
    | nil a => exact Way.nil a
    | cons hn hentries howned hsearch hname _ ih =>
      exact Way.cons ((hdirectory hentries howned).mpr hn) hentries howned hsearch hname ih

/-- The directories of the owner stay, and so do their names for directories. -/
def Frame (owner : ℕ) (fs fs' : FS ν β) : Prop :=
  ∀ i n entries, fs.inodes i = some n → n.content = .directory entries → n.Owned owner →
    ∃ entries', fs'.inodes i = some { n with content := .directory entries' } ∧
      ∀ name j m, entries name = some j → fs.inodes j = some m → m.content.kind = .directory →
        m.Owned owner → entries' name = some j

theorem Frame.refl (fs : FS ν β) : Frame owner fs fs := by
  intro i n entries hn hentries howned
  exact ⟨entries, by rw [hn, ← hentries], fun _ _ _ hname _ _ _ => hname⟩

theorem Content.directory_of_kind {content : Content ν β} (h : content.kind = .directory) :
    ∃ entries, content = .directory entries := by
  cases content with
  | directory entries => exact ⟨entries, rfl⟩
  | _ => cases h

theorem Frame.trans {fs₁ fs₂ fs₃ : FS ν β} (h₁ : Frame owner fs₁ fs₂) (h₂ : Frame owner fs₂ fs₃) :
    Frame owner fs₁ fs₃ := by
  intro i n entries hn hentries howned
  obtain ⟨entries', hn', hkept⟩ := h₁ i n entries hn hentries howned
  obtain ⟨entries'', hn'', hkept'⟩ := h₂ i _ entries' hn' rfl ⟨howned.uid, howned.mode⟩
  refine ⟨entries'', hn'', fun name j m hname hm hkind hmowned => ?_⟩
  obtain ⟨inner, hinner⟩ := m.content.directory_of_kind hkind
  obtain ⟨inner', hm', -⟩ := h₁ j m inner hm hinner hmowned
  exact hkept' name j _ (hkept name j m hname hm hkind hmowned) hm' rfl ⟨hmowned.uid, hmowned.mode⟩

theorem Act.frame (h : Act owner fs fs') : Frame owner fs fs' := by
  intro i n entries hn hentries howned
  have hsealed : Sealed owner fs i n := by
    refine ⟨howned, hn, fun hkind => ?_⟩
    rw [hentries] at hkind
    cases hkind
  exact ⟨entries, by rw [(h.sealed hsealed).inode, ← hentries], fun _ _ _ hname _ _ _ => hname⟩

/-- A way to a trusted directory is still one. -/
theorem Frame.way (h : Frame owner fs fs') {c : Cred} {a d : ℕ} {names : List ν} {m : Inode ν β}
    (hway : Way owner c fs a names d) (hm : fs.inodes d = some m) (htrusted : m.Trusted owner) :
    Way owner c fs' a names d := by
  induction hway with
  | nil a => exact Way.nil a
  | @cons a i j n entries name rest hn hentries howned hsearch hname hrest ih =>
    -- the next inode is a trusted directory too
    have hnext : ∃ n', fs.inodes i = some n' ∧ n'.content.kind = .directory ∧ n'.Owned owner := by
      cases hrest with
      | nil => exact ⟨m, hm, htrusted.directory, htrusted.toOwned⟩
      | cons hn' hentries' howned' _ _ _ => exact ⟨_, hn', by rw [hentries']; rfl, howned'⟩
    obtain ⟨n', hn', hkind, howned'⟩ := hnext
    obtain ⟨entries', hkept, hnames⟩ := h a n entries hn hentries howned
    exact Way.cons hkept rfl ⟨howned.uid, howned.mode⟩ hsearch (hnames name i n' hname hn' hkind howned')
      (ih hm)

theorem Frame.trusted (h : Frame owner fs fs') {d : ℕ} {m : Inode ν β} (hm : fs.inodes d = some m)
    (htrusted : m.Trusted owner) : ∃ m', fs'.inodes d = some m' ∧ m'.Trusted owner := by
  obtain ⟨entries, hentries⟩ := m.content.directory_of_kind htrusted.directory
  obtain ⟨entries', hm', -⟩ := h d m entries hm hentries htrusted.toOwned
  exact ⟨_, hm', ⟨htrusted.uid, htrusted.mode⟩, rfl⟩

end Others

/-! ## System calls

A call is one step. Some of them only look, and their answer is a function of the file system;
others change it, and of these each may also fail without a change. Errors are told apart where
the callers tell them apart. -/

/-- The calls that change names and attributes, and `fsync`. -/
inductive Change (ν : Type)
  | mkdir (path : List ν) (mode : ℕ)
  | fsync (fd : ℕ)
  | chmod (path : List ν) (mode : ℕ)
  | chown (path : List ν) (uid : ℕ)
  | chgrp (path : List ν) (gid : ℕ)
  | rename (source target : List ν)
  | unlink (path : List ν)

inductive Call (ν β : Type)
  | lstat (path : List ν)
  /-- `O_RDONLY | O_NOFOLLOW` -/
  | open_nofollow (path : List ν)
  | fstat (fd : ℕ)
  /-- `limit` bytes at most, from `offset` on -/
  | read (fd offset limit : ℕ)
  | is_dir (path : List ν)
  /-- `O_CREAT | O_EXCL`, for writing -/
  | create (path : List ν) (mode : ℕ)
  | write (fd : ℕ) (data : List β)
  | change (change : Change ν)

/-- A file descriptor is the number of its inode; a write answers how much it wrote. -/
abbrev Answer {ν β : Type} : Call ν β → Type
  | .lstat _ => Except Errno Stat
  | .open_nofollow _ => Except Errno ℕ
  | .fstat _ => Except Errno Stat
  | .read _ _ _ => Except Errno (List β)
  | .is_dir _ => Bool
  | .create _ _ => Option ℕ
  | .write _ _ => ℕ
  | .change _ => Bool

section Calls

variable {ν β : Type} [DecidableEq ν]

def FS.lstat (fs : FS ν β) (c : Cred) (path : List ν) : Except Errno Stat :=
  (fs.resolve c true path).bind fun i => ((fs.inodes i).map Inode.stat).elim (.error .ENOENT) .ok

def FS.open_nofollow (fs : FS ν β) (c : Cred) (path : List ν) : Except Errno ℕ :=
  (fs.resolve c true path).bind fun i =>
    match fs.inodes i with
    | none => .error .ENOENT
    | some n =>
      if n.content.kind = .symlink then .error .ELOOP
      else if n.grants c 2 then .ok i
      else .error .EACCES

def FS.fstat (fs : FS ν β) (fd : ℕ) : Except Errno Stat :=
  ((fs.inodes fd).map Inode.stat).elim (.error Errno.EIO) .ok

def FS.is_dir (fs : FS ν β) (c : Cred) (path : List ν) : Bool :=
  match fs.resolve c false path with
  | .error _ => false
  | .ok i => (fs.inodes i).any (fun n => n.content.kind = .directory)

/-- A read may be short, but it is empty at the end only. -/
inductive Reading (fs : FS ν β) (fd offset limit : ℕ) : Except Errno (List β) → Prop
  | data {n : Inode ν β} {contents chunk : List β} (hn : fs.inodes fd = some n)
      (hcontents : n.content = .regular contents)
      (hchunk : chunk <+: (contents.drop offset).take limit)
      (hend : chunk = [] → (contents.drop offset).take limit = []) :
      Reading fs fd offset limit (.ok chunk)
  | other {n : Inode ν β} (e : Errno) (hn : fs.inodes fd = some n) (hkind : n.content.kind ≠ .regular) :
      Reading fs fd offset limit (.error e)

/-- A path is a name in a directory. -/
def FS.Place (fs : FS ν β) (c : Cred) (path : List ν) (dir : ℕ) (name : ν) : Prop :=
  ∃ names, path = names ++ [name] ∧ fs.resolve c false names = .ok dir

def Content.bind (content : Content ν β) (name : ν) (i : Option ℕ) : Content ν β :=
  match content with
  | .directory entries => .directory (Function.update entries name i)
  | content => content

/-- The entry of a directory is set, or removed. -/
def FS.link (fs : FS ν β) (dir : ℕ) (name : ν) (i : Option ℕ) : FS ν β :=
  match fs.inodes dir with
  | none => fs
  | some n => fs.put dir { n with content := n.content.bind name i }

/-- A new inode gets a name. -/
def FS.make (fs : FS ν β) (i : ℕ) (n : Inode ν β) (dir : ℕ) (name : ν) : FS ν β :=
  ((fs.put i n).hold i false).link dir name (some i)

/-- What a process of root changes; it is refused nothing for its permissions. -/
inductive Changes (c : Cred) (fs : FS ν β) : Change ν → FS ν β → Prop
  | mkdir {path : List ν} {mode i dir gid : ℕ} {name : ν} (hplace : fs.Place c path dir name)
      (hnone : fs.entry c dir name = .error .ENOENT) (hfree : fs.inodes i = none) :
      Changes c fs (.mkdir path mode)
        (fs.make i ⟨c.uid, gid, mode, .directory (fun _ => none)⟩ dir name)
  | fsync (fd : ℕ) : Changes c fs (.fsync fd) fs
  | chmod {path : List ν} {mode i : ℕ} {n : Inode ν β} (hi : fs.resolve c false path = .ok i)
      (hn : fs.inodes i = some n) : Changes c fs (.chmod path mode) (fs.put i { n with mode })
  | chown {path : List ν} {uid i : ℕ} {n : Inode ν β} (hi : fs.resolve c false path = .ok i)
      (hn : fs.inodes i = some n) : Changes c fs (.chown path uid) (fs.put i { n with uid })
  | chgrp {path : List ν} {gid i : ℕ} {n : Inode ν β} (hi : fs.resolve c false path = .ok i)
      (hn : fs.inodes i = some n) : Changes c fs (.chgrp path gid) (fs.put i { n with gid })
  /-- The target is replaced if it exists. -/
  | rename {source target : List ν} {i dir dir' : ℕ} {name name' : ν}
      (hsource : fs.Place c source dir name) (hi : fs.entry c dir name = .ok i)
      (htarget : fs.Place c target dir' name')
      (hfile : ∀ j n, fs.entry c dir' name' = .ok j → fs.inodes j = some n → n.content.kind ≠ .directory) :
      Changes c fs (.rename source target) ((fs.link dir name none).link dir' name' (some i))
  | unlink {path : List ν} {i dir : ℕ} {name : ν} (hplace : fs.Place c path dir name)
      (hi : fs.entry c dir name = .ok i) : Changes c fs (.unlink path) (fs.link dir name none)

/-- The calls of a process. What changes the file system may fail, and then it has changed nothing;
a write may be cut short. -/
inductive Effect (c : Cred) (fs : FS ν β) : (call : Call ν β) → Answer call → FS ν β → Prop
  | lstat (path : List ν) : Effect c fs (.lstat path) (fs.lstat c path) fs
  | open_nofollow (path : List ν) : Effect c fs (.open_nofollow path) (fs.open_nofollow c path) fs
  | fstat (fd : ℕ) : Effect c fs (.fstat fd) (fs.fstat fd) fs
  | read {fd offset limit : ℕ} {x : Except Errno (List β)} (h : Reading fs fd offset limit x) :
      Effect c fs (.read fd offset limit) x fs
  | is_dir (path : List ν) : Effect c fs (.is_dir path) (fs.is_dir c path) fs
  | create {path : List ν} {mode i dir gid : ℕ} {name : ν} (hplace : fs.Place c path dir name)
      (hnone : fs.entry c dir name = .error .ENOENT) (hfree : fs.inodes i = none) :
      Effect c fs (.create path mode) (some i) (fs.make i ⟨c.uid, gid, mode, .regular []⟩ dir name)
  | not_created (path : List ν) (mode : ℕ) : Effect c fs (.create path mode) none fs
  | write {fd written : ℕ} {data contents : List β} {n : Inode ν β} (hn : fs.inodes fd = some n)
      (hcontents : n.content = .regular contents) (hwritten : written ≤ data.length) :
      Effect c fs (.write fd data) written
        (fs.put fd { n with content := .regular (contents ++ data.take written) })
  | changed {change : Change ν} {fs' : FS ν β} (h : Changes c fs change fs') :
      Effect c fs (.change change) true fs'
  | not_changed (change : Change ν) : Effect c fs (.change change) false fs

variable {c : Cred} {fs fs' : FS ν β}

theorem changes_of_effect {change : Change ν} (h : Effect c fs (.change change) true fs') :
    Changes c fs change fs' := by
  cases h with
  | changed h => exact h

/-- What a call refuses stays. -/
theorem same_of_effect {change : Change ν} (h : Effect c fs (.change change) false fs') : fs' = fs := by
  cases h
  rfl

theorem write_effect {fd written : ℕ} {data : List β} (h : Effect c fs (.write fd data) written fs') :
    ∃ n contents, fs.inodes fd = some n ∧ n.content = .regular contents ∧ written ≤ data.length ∧
      fs' = fs.put fd { n with content := .regular (contents ++ data.take written) } := by
  cases h with
  | write hn hcontents hwritten => exact ⟨_, _, hn, hcontents, hwritten, rfl⟩

theorem create_effect {path : List ν} {mode : ℕ} (h : Effect c fs (.create path mode) none fs') :
    fs' = fs := by
  cases h
  rfl

theorem fsync_changes {fd : ℕ} (h : Changes c fs (.fsync fd) fs') : fs' = fs := by
  cases h
  rfl

theorem unlink_changes {path : List ν} (h : Changes c fs (.unlink path) fs') :
    ∃ i dir name, fs.Place c path dir name ∧ fs.entry c dir name = .ok i ∧
      fs' = fs.link dir name none := by
  cases h with
  | unlink hplace hi => exact ⟨_, _, _, hplace, hi, rfl⟩

theorem rename_changes {source target : List ν} (h : Changes c fs (.rename source target) fs') :
    ∃ i dir dir' name name', fs.Place c source dir name ∧ fs.entry c dir name = .ok i ∧
      fs.Place c target dir' name' ∧ fs' = (fs.link dir name none).link dir' name' (some i) := by
  cases h with
  | rename hsource hi htarget hfile => exact ⟨_, _, _, _, _, hsource, hi, htarget, rfl⟩

theorem chmod_changes {path : List ν} {mode : ℕ} (h : Changes c fs (.chmod path mode) fs') :
    ∃ i n, fs.resolve c false path = .ok i ∧ fs.inodes i = some n ∧ fs' = fs.put i { n with mode } := by
  cases h with
  | chmod hi hn => exact ⟨_, _, hi, hn, rfl⟩

theorem chown_changes {path : List ν} {uid : ℕ} (h : Changes c fs (.chown path uid) fs') :
    ∃ i n, fs.resolve c false path = .ok i ∧ fs.inodes i = some n ∧ fs' = fs.put i { n with uid } := by
  cases h with
  | chown hi hn => exact ⟨_, _, hi, hn, rfl⟩

theorem chgrp_changes {path : List ν} {gid : ℕ} (h : Changes c fs (.chgrp path gid) fs') :
    ∃ i n, fs.resolve c false path = .ok i ∧ fs.inodes i = some n ∧ fs' = fs.put i { n with gid } := by
  cases h with
  | chgrp hi hn => exact ⟨_, _, hi, hn, rfl⟩

end Calls

end F2bguard.FileSystem
